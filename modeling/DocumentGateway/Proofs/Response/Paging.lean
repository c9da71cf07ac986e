import DocumentGateway.Proofs.Response.BodyForms
import DocumentGateway.Proofs.Response.ErrorGate

namespace DocumentGateway
namespace Response

/-!
# Paging through a body

A read puts octets of the body in front of a buffer, as many as the body has from the offset on and
as fit into the buffer and the limit.  Reads that go on where the last one ended take the body apart
into pieces, wherever its characters begin and end: put together the pieces are the body, and the
read behind the last of them finds nothing.  Each piece holds an octet at least, so that no more
reads are needed than the body has octets, and one.
-/

/-! ## One read -/

/-- The octets of a body without surrogates are known. -/
theorem exists_octets_eq_ok (r : Response) (scalar : r.body.IsScalar) :
    ∃ bytes, r.octets = .ok bytes := by
  rcases r with ⟨status, type, headers, body⟩
  cases body with
  | octets bytes => exact ⟨bytes, rfl⟩
  | text t =>
      rcases scalar with ⟨chars, rfl⟩
      exact ⟨utf8Octets chars, (readAlike_setBody ⟨status, type, headers, .octets []⟩ chars).octets⟩

/-- The number of octets that a read takes. -/
def readSize (bytes buffer : Bytes) (maxSize offset : Int) : Nat :=
  min (min maxSize.toNat buffer.length) (bytes.length - offset.toNat)

theorem read_of_negative (r : Response) (buffer : Bytes) {maxSize offset : Int}
    (negative : offset < 0 ∨ maxSize < 0) :
    r.read buffer maxSize offset = .error .negativeRange :=
  if_pos negative

/-- A read takes what the body has from the offset on, and leaves the rest of the buffer. -/
theorem read_eq_ok {r : Response} {bytes : Bytes} (isBody : r.octets = .ok bytes) (buffer : Bytes)
    {maxSize offset : Int} (offset_nonneg : 0 ≤ offset) (maxSize_nonneg : 0 ≤ maxSize) :
    r.read buffer maxSize offset =
      .ok (readSize bytes buffer maxSize offset,
        (bytes.drop offset.toNat).take (readSize bytes buffer maxSize offset) ++
          buffer.drop (readSize bytes buffer maxSize offset)) := by
  have proper : ¬ (offset < 0 ∨ maxSize < 0) := by omega
  have size : ((bytes.drop offset.toNat).take (min maxSize.toNat buffer.length)).length =
      readSize bytes buffer maxSize offset := by
    rw [List.length_take, List.length_drop, readSize]
  have chunk : (bytes.drop offset.toNat).take (min maxSize.toNat buffer.length) =
      (bytes.drop offset.toNat).take (readSize bytes buffer maxSize offset) := by
    rw [← size, List.length_take, List.take_eq_take_min]
  rw [read, if_neg proper, isBody]
  change Except.ok (List.length _, _ ++ buffer.drop (List.length _)) = _
  rw [size, chunk]

/-! ## Reads one after the other -/

/-- What a read is made with: a buffer that has room, and a limit that lets something through. -/
structure Page where
  buffer : Bytes
  maxSize : Int
  room : 0 < buffer.length
  wanted : 0 < maxSize

/-- What reads took, one piece each, and whether the last of them found nothing. -/
structure Paging where
  pieces : List Bytes
  isDone : Bool

/-- Read page by page, each from where the last one ended, up to a read that finds nothing. -/
def pageFrom (r : Response) : (offset : Nat) → List Page → Except Fault Paging
  | _, [] => .ok ⟨[], false⟩
  | offset, page :: more => do
    let (size, filled) ← r.read page.buffer page.maxSize offset
    if size = 0 then return ⟨[filled.take size], true⟩
    else
      let others ← pageFrom r (offset + size) more
      return ⟨filled.take size :: others.pieces, others.isDone⟩

/-- One more page takes a piece off what is left of the body, or ends the reading. -/
theorem pageFrom_cons {r : Response} {bytes : Bytes} (isBody : r.octets = .ok bytes) (offset : Nat)
    (page : Page) (more : List Page) :
    ∃ size, size ≤ bytes.length - offset ∧ (size = 0 → bytes.length ≤ offset) ∧
      pageFrom r offset (page :: more) =
        if size = 0 then .ok ⟨[[]], true⟩
        else (pageFrom r (offset + size) more).map fun others =>
          ⟨(bytes.drop offset).take size :: others.pieces, others.isDone⟩ := by
  have room := page.room
  have wanted := page.wanted
  have taken := read_eq_ok isBody page.buffer (Int.natCast_nonneg offset) wanted.le
  generalize isSize : readSize bytes page.buffer page.maxSize offset = size at taken
  rw [readSize, Int.toNat_natCast] at isSize
  rw [Int.toNat_natCast] at taken
  have piece : ((bytes.drop offset).take size ++ page.buffer.drop size).take size =
      (bytes.drop offset).take size := by
    have whole : ((bytes.drop offset).take size).length = size := by
      rw [List.length_take, List.length_drop]
      omega
    rw [List.take_append_of_le_length whole.ge, List.take_take, Nat.min_self]
  refine ⟨size, by omega, by omega, ?_⟩
  rw [pageFrom, taken]
  change (if size = 0 then _ else _) = _
  by_cases none : size = 0
  · rw [if_pos none, if_pos none, piece, none]
    rfl
  · rw [if_neg none, if_neg none, piece]
    cases pageFrom r (offset + size) more <;> rfl

/-- Reading page by page never fails.  It ends behind the last octet, or the pages run out before,
and then the pieces are the beginning of what was to be read. -/
theorem exists_pageFrom {r : Response} {bytes : Bytes} (isBody : r.octets = .ok bytes)
    (pages : List Page) (offset : Nat) :
    ∃ paging, pageFrom r offset pages = .ok paging ∧
      ((paging.isDone = true ∧ paging.pieces.length ≤ bytes.length - offset + 1 ∧
          paging.pieces.flatten = bytes.drop offset) ∨
        (paging.isDone = false ∧ paging.pieces.length = pages.length ∧
          pages.length ≤ bytes.length - offset ∧
          paging.pieces.flatten <+: bytes.drop offset)) := by
  induction pages generalizing offset with
  | nil => exact ⟨_, rfl, Or.inr ⟨rfl, rfl, Nat.zero_le _, List.nil_prefix⟩⟩
  | cons page more ih =>
      rcases pageFrom_cons isBody offset page more with ⟨size, within, ends, paged⟩
      rw [paged]
      by_cases none : size = 0
      · rw [if_pos none]
        refine ⟨_, rfl, Or.inl ⟨rfl, by simp, ?_⟩⟩
        exact (List.drop_eq_nil_of_le (ends none)).symm
      · rw [if_neg none]
        rcases ih (offset + size) with ⟨others, found, reading⟩
        rw [found]
        have apart : bytes.drop offset =
            (bytes.drop offset).take size ++ bytes.drop (offset + size) := by
          rw [← List.drop_drop, List.take_append_drop]
        refine ⟨_, rfl, ?_⟩
        dsimp only
        rw [List.flatten_cons, List.length_cons, List.length_cons]
        rcases reading with ⟨done, few, whole⟩ | ⟨open_, each, few, front⟩
        · refine Or.inl ⟨done, by omega, ?_⟩
          rw [whole, ← apart]
        · refine Or.inr ⟨open_, by rw [each], by omega, ?_⟩
          have longer := (List.prefix_append_right_inj ((bytes.drop offset).take size)).mpr front
          rw [← apart] at longer
          exact longer

/-- A read takes as many octets as the body has from the offset on and as fit into the buffer and
the limit, puts them in front of the buffer and leaves what is behind them; ranges below zero are
refused.  Reading a body page by page gives the body, in no more reads than it has octets, and
one. -/
theorem read_and_pageFrom (r : Response) (scalar : r.body.IsScalar) :
    ∃ bytes, r.octets = .ok bytes ∧
      (∀ (buffer : Bytes) (maxSize offset : Int), offset < 0 ∨ maxSize < 0 →
        r.read buffer maxSize offset = .error .negativeRange) ∧
      (∀ (buffer : Bytes) (maxSize offset : Int), 0 ≤ offset → 0 ≤ maxSize →
        ∃ n : Nat, (n : Int) = min maxSize (min buffer.length (max 0 (bytes.length - offset))) ∧
          r.read buffer maxSize offset =
            .ok (n, (bytes.drop offset.toNat).take n ++ buffer.drop n)) ∧
      ∀ pages : List Page, ∃ paging, pageFrom r 0 pages = .ok paging ∧
        paging.pieces.length ≤ bytes.length + 1 ∧ paging.pieces.flatten <+: bytes ∧
        (bytes.length < pages.length → paging.isDone = true) ∧
        (paging.isDone = true → paging.pieces.flatten = bytes) := by
  rcases r.exists_octets_eq_ok scalar with ⟨bytes, isBody⟩
  refine ⟨bytes, isBody, fun buffer _ _ negative => r.read_of_negative buffer negative, ?_, ?_⟩
  · intro buffer maxSize offset offset_nonneg maxSize_nonneg
    refine ⟨readSize bytes buffer maxSize offset, ?_,
      read_eq_ok isBody buffer offset_nonneg maxSize_nonneg⟩
    rw [readSize]
    omega
  · intro pages
    rcases exists_pageFrom isBody pages 0 with ⟨paging, paged, reading⟩
    rw [List.drop_zero, Nat.sub_zero] at reading
    refine ⟨paging, paged, ?_⟩
    rcases reading with ⟨done, few, whole⟩ | ⟨open_, each, few, front⟩
    · exact ⟨few, whole ▸ List.prefix_rfl, fun _ => done, fun _ => whole⟩
    · refine ⟨by omega, front, by omega, fun done => ?_⟩
      rw [open_] at done
      cases done

/-- A response with a character of two octets behind one of a single octet. -/
def accented : Response :=
  blank.setBody (.text (Text.ofChars ['a', 'é']))

/-- Room for two octets. -/
def twoOctets : Page :=
  ⟨[0, 0], 2, by decide, by decide⟩

theorem flatten_pageFrom_accented :
    accented.body.IsScalar ∧ ∃ paging, accented.pageFrom 0 (List.replicate 4 twoOctets) = .ok paging ∧
      paging.isDone = true ∧ paging.pieces.flatten = [0x61, 0xC3, 0xA9] := by
  have scalar : accented.body.IsScalar := ⟨_, rfl⟩
  have isBody : accented.octets = .ok [0x61, 0xC3, 0xA9] := rfl
  rcases read_and_pageFrom accented scalar with ⟨bytes, same, -, -, paged⟩
  cases same.symm.trans isBody
  rcases paged (List.replicate 4 twoOctets) with ⟨paging, found, -, -, ends, whole⟩
  exact ⟨scalar, paging, found, ends (by decide), whole (ends (by decide))⟩

end Response
end DocumentGateway
