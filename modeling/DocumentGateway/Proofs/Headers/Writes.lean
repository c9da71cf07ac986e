import DocumentGateway.Proofs.Response.Classification
import Mathlib.Data.List.Forall2

namespace DocumentGateway

/-!
# Headers over whole runs

What a map holds follows from the writes that it went through.  A key has the value it was last set to,
unless it was deleted since; and the keys stand in the order in which each of them was first set since
it was last deleted.  For pairs that are written one after the other this is the order in which their
names first occur, with the values that they have last.

Maps of headers are copied and built anew from one another.  A copy goes through what the map went
through that it was made from, and from then on each of them goes its own way.
-/

namespace OrderedPairs

variable {κ ν : Type} [BEq κ]

/-! ## Writes -/

/-- A write to a map. -/
inductive Write (κ ν : Type) where
  | set (key : κ) (value : ν)
  | delete (key : κ)

namespace Write

/-- The key that is written to. -/
def key : Write κ ν → κ
  | set key _ => key
  | delete key => key

/-- The value that is written, if the key gets one. -/
def value? : Write κ ν → Option ν
  | set _ value => some value
  | delete _ => none

/-- Whether a write deletes a key. -/
def deletes (write : Write κ ν) (key : κ) : Bool :=
  match write with
  | set _ _ => false
  | delete gone => key == gone

end Write

/-- A map after a write.  To delete a key that is absent changes nothing. -/
def write (pairs : OrderedPairs κ ν) : Write κ ν → OrderedPairs κ ν
  | .set key value => pairs.put key value
  | .delete key => pairs.erase key

/-- The map that results from writes, starting from nothing. -/
def replay (writes : List (Write κ ν)) : OrderedPairs κ ν :=
  writes.foldl write []

/-- The value that a key was last set to, if it was not deleted since. -/
def lastSet (writes : List (Write κ ν)) (key : κ) : Option ν :=
  (writes.reverse.find? fun write => write.key == key).bind Write.value?

/-- The keys that are set and not deleted later on. -/
def standing : List (Write κ ν) → List κ
  | [] => []
  | .set key _ :: later =>
    if later.any (·.deletes key) then standing later else key :: standing later
  | .delete _ :: later => standing later

/-- The keys in the order in which each of them was first set since it was last deleted. -/
def standingOrder (writes : List (Write κ ν)) : List κ :=
  (standing writes).eraseDups

theorem replay_append_singleton (writes : List (Write κ ν)) (last : Write κ ν) :
    replay (writes ++ [last]) = (replay writes).write last :=
  List.foldl_append ..

/-- Pairs are written by setting each of their keys. -/
theorem replay_map_set (pairs : List (κ × ν)) :
    replay (pairs.map fun pair => .set pair.1 pair.2) = ofPairs pairs :=
  List.foldl_map ..

/-! ## Values -/

theorem lastSet_append_singleton (writes : List (Write κ ν)) (last : Write κ ν) (key : κ) :
    lastSet (writes ++ [last]) key =
      if last.key == key then last.value? else lastSet writes key := by
  rw [lastSet, List.reverse_append, List.reverse_singleton, List.singleton_append]
  cases same : last.key == key with
  | true =>
      rw [List.find?_cons, same]
      rfl
  | false =>
      rw [List.find?_cons, same]
      rfl

theorem get?_replay [PartialEquivBEq κ] (writes : List (Write κ ν)) (key : κ) :
    (replay writes).get? key = lastSet writes key := by
  induction writes using List.reverseRecOn with
  | nil => rfl
  | append_singleton writes last ih =>
      rw [replay_append_singleton, lastSet_append_singleton, ← ih]
      cases last with
      | set other value => exact get?_put ..
      | delete other => exact get?_erase ..

/-! ## Keys -/

variable [LawfulBEq κ]

theorem mem_keys_iff_holds (pairs : OrderedPairs κ ν) (key : κ) :
    key ∈ pairs.keys ↔ pairs.holds key = true := by
  rw [← any_keys, List.any_eq_true]
  constructor
  · exact fun member => ⟨key, member, beq_self_eq_true key⟩
  · rintro ⟨other, member, same⟩
    exact eq_of_beq same ▸ member

omit [LawfulBEq κ] in
theorem standing_append_set (writes : List (Write κ ν)) (key : κ) (value : ν) :
    standing (writes ++ [.set key value]) = standing writes ++ [key] := by
  induction writes with
  | nil => rfl
  | cons first later ih =>
      cases first with
      | delete gone => exact ih
      | set other _ =>
          have same : (later ++ [Write.set key value]).any (·.deletes other) =
              later.any (·.deletes other) := by
            rw [List.any_append]
            exact Bool.or_false _
          rw [List.cons_append, standing, standing, same, ih]
          split <;> rfl

omit [LawfulBEq κ] in
theorem standing_append_delete (writes : List (Write κ ν)) (gone : κ) :
    standing (writes ++ [.delete gone]) = (standing writes).filter fun key => !(key == gone) := by
  induction writes with
  | nil => rfl
  | cons first later ih =>
      cases first with
      | delete other => exact ih
      | set key _ =>
          have either : (later ++ [Write.delete (ν := ν) gone]).any (·.deletes key) =
              (later.any (·.deletes key) || key == gone) := by
            rw [List.any_append]
            exact congrArg (later.any (·.deletes key) || ·) (Bool.or_false _)
          rw [List.cons_append, standing, standing, either, ih]
          cases later.any (·.deletes key) with
          | true => rfl
          | false =>
              rw [Bool.false_or, if_neg Bool.false_ne_true, List.filter_cons]
              cases key == gone <;> rfl

/-- Keys that are taken out before or after repeated ones are merged leave the same keys. -/
theorem eraseDups_filter (p : κ → Bool) (keys : List κ) :
    (keys.filter p).eraseDups = keys.eraseDups.filter p := by
  match keys with
  | [] => rfl
  | key :: rest =>
      -- Merging goes on with what is left of the rest without its first key.
      have merged := eraseDups_filter p (rest.filter fun other => !(other == key))
      rw [List.filter_filter] at merged
      rw [List.eraseDups_cons]
      cases kept : p key with
      | true =>
          rw [List.filter_cons_of_pos kept, List.filter_cons_of_pos kept, List.eraseDups_cons,
            List.filter_filter, ← merged]
          simp only [Bool.and_comm]
      | false =>
          have apart : (rest.filter fun other => p other && !(other == key)) = rest.filter p := by
            refine List.filter_congr fun other _ => ?_
            cases hit : other == key with
            | true => rw [eq_of_beq hit, kept]; rfl
            | false => exact Bool.and_true _
          have dropped : ¬ p key = true := Bool.eq_false_iff.mp kept
          rw [List.filter_cons_of_neg dropped, List.filter_cons_of_neg dropped, ← merged, apart]
termination_by keys.length
decreasing_by exact Nat.lt_succ_of_le (List.length_filter_le ..)

theorem nodup_eraseDups (keys : List κ) : keys.eraseDups.Nodup := by
  match keys with
  | [] => exact List.nodup_nil
  | key :: rest =>
      rw [List.eraseDups_cons, List.nodup_cons]
      refine ⟨fun member => ?_, nodup_eraseDups _⟩
      have among := List.mem_eraseDups.mp member
      rw [List.mem_filter, beq_self_eq_true] at among
      exact Bool.false_ne_true among.2
termination_by keys.length
decreasing_by exact Nat.lt_succ_of_le (List.length_filter_le ..)

/-- A key that is set again stays, and a new one goes to the end. -/
theorem standingOrder_append_set (writes : List (Write κ ν)) (key : κ) (value : ν) :
    standingOrder (writes ++ [.set key value]) =
      if key ∈ standingOrder writes then standingOrder writes else standingOrder writes ++ [key] := by
  rw [standingOrder, standing_append_set, List.eraseDups_append, standingOrder, List.removeAll]
  by_cases member : key ∈ standing writes
  · rw [if_pos (List.mem_eraseDups.mpr member),
      List.filter_cons_of_neg (by simp [member]), List.filter_nil]
    exact List.append_nil _
  · rw [if_neg fun among => member (List.mem_eraseDups.mp among),
      List.filter_cons_of_pos (by simp [member]), List.filter_nil]
    rfl

theorem keys_replay (writes : List (Write κ ν)) : (replay writes).keys = standingOrder writes := by
  induction writes using List.reverseRecOn with
  | nil => rfl
  | append_singleton writes last ih =>
      rw [replay_append_singleton]
      cases last with
      | set key value =>
          refine (keys_put (replay writes) key value).trans ?_
          rw [standingOrder_append_set, ← ih]
          simp only [mem_keys_iff_holds]
      | delete gone =>
          refine (keys_erase (replay writes) gone).trans ?_
          rw [standingOrder, standing_append_delete, eraseDups_filter, ih, standingOrder]

theorem nodup_keys_replay (writes : List (Write κ ν)) : (replay writes).keys.Nodup := by
  rw [keys_replay]
  exact nodup_eraseDups _

/-- A map with different keys is built anew from its own pairs. -/
theorem ofPairs_of_nodup {pairs : OrderedPairs κ ν} (distinct : pairs.keys.Nodup) :
    ofPairs pairs = pairs :=
  ofPairs_of_pairwise pairs (distinct.imp fun differs => beq_eq_false_iff_ne.mpr differs)

/-- In a map with different keys, the pairs are what is found. -/
theorem mem_iff_get?_eq_some {pairs : OrderedPairs κ ν} (distinct : pairs.keys.Nodup) (key : κ)
    (value : ν) : (key, value) ∈ pairs ↔ pairs.get? key = some value := by
  induction pairs with
  | nil => exact iff_of_false List.not_mem_nil nofun
  | cons pair rest ih =>
      rcases pair with ⟨other, found⟩
      rcases List.nodup_cons.mp distinct with ⟨fresh, following⟩
      rw [get?_cons, List.mem_cons, ih following]
      by_cases here : other == key
      · obtain rfl := eq_of_beq here
        have absent : get? rest other ≠ some value := fun later =>
          fresh (List.mem_map.mpr ⟨(other, value), (ih following).mpr later, rfl⟩)
        rw [if_pos here, or_iff_left absent, Prod.mk.injEq, and_iff_right rfl, Option.some.injEq,
          eq_comm]
      · have differs : ¬ (key, value) = (other, found) := fun same =>
          here (beq_iff_eq.mpr (congrArg Prod.fst same).symm)
        rw [if_neg here, or_iff_right differs]

end OrderedPairs

namespace Headers

open OrderedPairs

/-! ## Runs -/

/-- What can be done with maps of headers, which are counted in the order in which they come up: one is
built from pairs, or is a copy of another one; a name is set or deleted in one; or one is built anew
from its own pairs. -/
inductive Step where
  | build (pairs : List (Text × Text))
  | set (index : Nat) (name value : Text)
  | delete (index : Nat) (name : Text)
  | copy (index : Nat)
  | rebuild (index : Nat)

/-- The maps after a step. -/
def take (maps : List Headers) : Step → List Headers
  | .build pairs => maps ++ [ofPairs pairs]
  | .set index name value => maps.modify index (·.put name value)
  | .delete index name => maps.modify index (·.erase name)
  | .copy index => maps ++ (maps[index]?.map ofPairs).toList
  | .rebuild index => maps.modify index ofPairs

/-- The maps after steps, of which the first ones build the first maps. -/
def takeAll (steps : List Step) : List Headers :=
  steps.foldl take []

/-- The writes that maps went through, after a step. -/
def note (histories : List (List (Write Text Text))) : Step → List (List (Write Text Text))
  | .build pairs => histories ++ [pairs.map fun pair => .set pair.1 pair.2]
  | .set index name value => histories.modify index (· ++ [.set name value])
  | .delete index name => histories.modify index (· ++ [.delete name])
  | .copy index => histories ++ histories[index]?.toList
  | .rebuild _ => histories

/-- The writes that each of the maps went through in steps. -/
def histories (steps : List Step) : List (List (Write Text Text)) :=
  steps.foldl note []

/-- What holds of headers that went through some writes, and of what is done to them from then on. -/
structure KeepsWrites (writes : List (Write Text Text)) (headers : Headers) : Prop where
  distinct : headers.keys.Nodup
  ordered : headers.keys = standingOrder writes
  found : ∀ name fallback,
    (headers.get? name).getD fallback = (lastSet writes name).getD fallback
  replaced : ∀ name value, name ∈ headers.keys → (headers.put name value).keys = headers.keys
  setAgain : ∀ name value, ((headers.erase name).put name value).keys =
    (headers.keys.filter fun other => !(other == name)) ++ [name]
  rebuilt : ofPairs headers = headers

/-- Headers keep the writes that they are the result of. -/
theorem keepsWrites_replay (writes : List (Write Text Text)) : KeepsWrites writes (replay writes) where
  distinct := nodup_keys_replay writes
  ordered := keys_replay writes
  found := fun name fallback => by rw [get?_replay]
  replaced := fun name value present => by
    rw [keys_put, if_pos ((mem_keys_iff_holds _ name).mp present)]
  setAgain := fun name value => by
    have gone : ¬ (erase (replay writes) name).holds name = true := by
      rw [← mem_keys_iff_holds, keys_erase, List.mem_filter, beq_self_eq_true]
      exact fun member => Bool.false_ne_true member.2
    rw [keys_put, if_neg gone, keys_erase]
  rebuilt := ofPairs_of_nodup (nodup_keys_replay writes)

theorem map_modify {α β : Type} {f : α → β} {g : α → α} {h : β → β}
    (commutes : ∀ a, f (g a) = h (f a)) (items : List α) (index : Nat) :
    (items.modify index g).map f = (items.map f).modify index h := by
  refine List.ext_getElem? fun i => ?_
  rw [List.getElem?_map, List.getElem?_modify, List.getElem?_modify, List.getElem?_map]
  cases items[i]? with
  | none => rfl
  | some a =>
      change some (f (if index = i then g a else a)) = some (if index = i then h (f a) else f a)
      split
      · rw [commutes]
      · rfl

/-- A step leaves every map the result of its writes. -/
theorem take_map_replay (histories : List (List (Write Text Text))) (step : Step) :
    take (histories.map replay) step = (note histories step).map replay := by
  cases step with
  | build pairs => rw [take, note, List.map_append, List.map_singleton, replay_map_set]
  | set index | delete index =>
      exact (map_modify (fun writes => replay_append_singleton writes _) histories index).symm
  | copy index =>
      rw [take, note, List.map_append, List.getElem?_map]
      cases histories[index]? with
      | none => rfl
      | some writes =>
          -- A copy is built from pairs that are a map already, and so it is what it was made from.
          exact congrArg (_ ++ [·]) (keepsWrites_replay writes).rebuilt
  | rebuild index =>
      refine (map_modify (g := id) (fun writes => ?_) histories index).symm.trans ?_
      · exact (keepsWrites_replay writes).rebuilt.symm
      · rw [List.modify_id, note]

theorem takeAll_eq_map_replay (steps : List Step) : takeAll steps = (histories steps).map replay := by
  induction steps using List.reverseRecOn with
  | nil => rfl
  | append_singleton steps step ih =>
      rw [takeAll, List.foldl_append, histories, List.foldl_append]
      exact (congrArg (take · step) ih).trans (take_map_replay (histories steps) step)

/-- The one map that is built empty and then written to goes through these writes. -/
theorem histories_set (pairs : List (Text × Text)) :
    histories (.build [] :: pairs.map fun pair => .set 0 pair.1 pair.2) =
      [pairs.map fun pair => .set pair.1 pair.2] := by
  induction pairs using List.reverseRecOn with
  | nil => rfl
  | append_singleton pairs pair ih =>
      rw [List.map_append, List.map_singleton, ← List.cons_append, histories, List.foldl_append]
      refine (congrArg (note · (.set 0 pair.1 pair.2)) ih).trans ?_
      rw [List.map_append]
      rfl

/-- Setting names one after the other leaves all of them. -/
theorem standing_map_set (pairs : List (Text × Text)) :
    standing (pairs.map fun pair => Write.set pair.1 pair.2) = pairs.map (·.1) := by
  induction pairs using List.reverseRecOn with
  | nil => rfl
  | append_singleton pairs pair ih =>
      rw [List.map_append, List.map_append, ← ih]
      exact standing_append_set _ pair.1 pair.2

/-- Headers are a map in which the last write to a name counts and the first one places it.  Pairs give
each of their names once, in the order in which the names first occur and with the values they have
last, as setting them one after the other does; and in every run, each of the maps keeps the writes
that it went through. -/
theorem keepsWrites_takeAll :
    (∀ pairs : List (Text × Text),
      keys (ofPairs pairs) = (pairs.map (·.1)).eraseDups ∧
      (∀ name value, (name, value) ∈ ofPairs pairs ↔ lastNamed pairs name = some value) ∧
      takeAll (.build [] :: pairs.map fun pair => .set 0 pair.1 pair.2) = [ofPairs pairs]) ∧
    ∀ steps : List Step, List.Forall₂ KeepsWrites (histories steps) (takeAll steps) := by
  refine ⟨fun pairs => ?_, fun steps => ?_⟩
  · have written := replay_map_set pairs
    refine ⟨?_, fun name value => ?_, ?_⟩
    · rw [← written, keys_replay, standingOrder, standing_map_set]
    · have distinct := nodup_keys_replay (pairs.map fun pair => Write.set pair.1 pair.2)
      rw [written] at distinct
      rw [mem_iff_get?_eq_some distinct, get?_ofPairs]
    · rw [takeAll_eq_map_replay, histories_set, List.map_singleton, written]
  · rw [takeAll_eq_map_replay, List.forall₂_map_right_iff, List.forall₂_same]
    exact fun writes _ => keepsWrites_replay writes

example :
    takeAll [.build [("A", "1"), ("B", "2"), ("A", "3")], .delete 0 "A", .copy 0, .set 1 "A" "4",
        .set 0 "B" "5"] =
      ([[("B", "5")], [("B", "2"), ("A", "4")]] : List (List (Text × Text))) := by
  decide

end Headers

end DocumentGateway
