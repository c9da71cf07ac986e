import DocumentGateway.Logging
import Mathlib.Data.List.Induction

namespace DocumentGateway

/-!
# Setting up logs that can fail

The logs are set up once: after a call that returns no other call changes anything.  A call that raises
is not without a trace, however.  Unless it is the format that is refused, it leaves a handler at the
first log, and the level too if that can be told; the next call begins with them.  The log of timings
and whether the logs are set up stay as they were.

So after any calls the logs are as the first call that returned sets them up, but for one handler more
at the first log for each call before it that raised with a proper format.
-/

namespace Logging

/-! ## Calls -/

/-- What the logs are to be set up with. -/
structure SetUp where
  level : Value
  format : Text
  file : PerformanceFile

namespace SetUp

variable (c : SetUp)

/-- The format of the handler at the first log. -/
def chosenFormat : Text :=
  if c.format.isEmpty then bareFormat else c.format

/-- The handlers that a call brings to the first log, whether it returns or raises. -/
def handlers : List Text :=
  if isFormat c.chosenFormat then [c.chosenFormat] else []

/-- The level that a call gives to the first log, whether it returns or raises. -/
def givenLevel? : Option Int :=
  if isFormat c.chosenFormat then (levelOf c.level).toOption else none

/-- Whether nothing that is asked for is refused. -/
def isAccepted : Bool :=
  isFormat c.chosenFormat && (levelOf c.level).toOption.isSome &&
    match c.file with
    | .refused _ => false
    | _ => true

theorem exists_givenLevel? (accepted : c.isAccepted = true) :
    ∃ number, c.givenLevel? = some number := by
  rw [isAccepted, Bool.and_eq_true, Bool.and_eq_true] at accepted
  obtain ⟨⟨proper, isLevel⟩, -⟩ := accepted
  rw [givenLevel?, if_pos proper]
  exact Option.isSome_iff_exists.mp isLevel

end SetUp

/-- The logs after a call, and how it ends. -/
def call (l : Logging) (c : SetUp) : Logging × Except Fault Unit :=
  l.setUp c.level c.format c.file

/-- The logs after calls, each of which goes on with what the one before it left. -/
def callAll (l : Logging) (calls : List SetUp) : Logging :=
  calls.foldl (fun l c => (l.call c).1) l

/-- The logs with what a call brings to the first of them, which is all that one that raises leaves. -/
def withTrace (l : Logging) (c : SetUp) : Logging :=
  { l with formats := l.formats ++ c.handlers, level := c.givenLevel?.getD l.level }

/-- The logs with all that a call sets up. -/
def configured (l : Logging) (c : SetUp) : Logging :=
  match c.file with
  | .opened =>
    { l.withTrace c with
        performanceLevel := debugLevel
        performanceFormats := l.performanceFormats ++ [bareFormat]
        isPropagated := false
        isInitialized := true }
  | _ => { l.withTrace c with isInitialized := true }

variable {l : Logging} {c : SetUp} {calls : List SetUp}

/-! ## One call -/

theorem call_of_initialized (ready : l.isInitialized = true) (c : SetUp) : l.call c = (l, .ok ()) := by
  rw [call, setUp]
  exact if_pos ready

/-- A call on logs that are not set up either returns and sets up all it asks for, or is refused
something, raises and leaves its trace. -/
theorem call_of_fresh (fresh : l.isInitialized = false) (c : SetUp) :
    (c.isAccepted = true ∧ l.call c = (l.configured c, .ok ())) ∨
      (c.isAccepted = false ∧ ∃ fault, l.call c = (l.withTrace c, .error fault)) := by
  obtain ⟨level, formats, performanceLevel, performanceFormats, isPropagated, _⟩ := l
  obtain rfl := fresh
  have chosen : (if c.format.isEmpty then bareFormat else c.format) = c.chosenFormat := rfl
  simp only [call, setUp, chosen, Bool.false_eq_true, if_false]
  rw [SetUp.isAccepted, configured, withTrace, SetUp.handlers, SetUp.givenLevel?]
  cases isFormat c.chosenFormat with
  | false =>
      refine Or.inr ⟨rfl, .logFormat c.chosenFormat, ?_⟩
      simp
  | true =>
      cases levelOf c.level with
      | error fault => exact Or.inr ⟨rfl, fault, rfl⟩
      | ok number =>
          cases c.file with
          | unwanted => exact Or.inl ⟨rfl, rfl⟩
          | refused path => exact Or.inr ⟨rfl, .cannotOpen path, rfl⟩
          | opened => exact Or.inl ⟨rfl, rfl⟩

theorem call_of_accepted (fresh : l.isInitialized = false) (accepted : c.isAccepted = true) :
    l.call c = (l.configured c, .ok ()) := by
  obtain ⟨-, returns⟩ | ⟨refused, -⟩ := call_of_fresh fresh c
  · exact returns
  · exact absurd accepted (Bool.eq_false_iff.mp refused)

theorem isInitialized_configured (l : Logging) (c : SetUp) : (l.configured c).isInitialized = true := by
  rw [configured]
  split <;> rfl

/-- Only the format can be refused without a trace. -/
theorem withTrace_eq_self_iff (l : Logging) (c : SetUp) :
    l.withTrace c = l ↔ isFormat c.chosenFormat = false := by
  rw [withTrace, SetUp.handlers, SetUp.givenLevel?]
  cases isFormat c.chosenFormat with
  | false => exact iff_of_true (by simp) rfl
  | true =>
      refine iff_of_false (fun same => ?_) (by decide)
      have handlers : l.formats ++ [c.chosenFormat] = l.formats := congrArg formats same
      exact absurd (congrArg List.length handlers) (by simp)

/-! ## Calls one after the other -/

theorem callAll_cons (l : Logging) (c : SetUp) (calls : List SetUp) :
    l.callAll (c :: calls) = (l.call c).1.callAll calls := rfl

theorem callAll_append (l : Logging) (calls more : List SetUp) :
    l.callAll (calls ++ more) = (l.callAll calls).callAll more :=
  List.foldl_append ..

theorem callAll_of_initialized (ready : l.isInitialized = true) (calls : List SetUp) :
    l.callAll calls = l := by
  induction calls with
  | nil => rfl
  | cons c rest ih => rw [callAll_cons, call_of_initialized ready, ih]

/-- What logs have in common that differ only in the handlers and the level of the first one. -/
structure AgreesBelow (l other : Logging) : Prop where
  performanceLevel : other.performanceLevel = l.performanceLevel
  performanceFormats : other.performanceFormats = l.performanceFormats
  isPropagated : other.isPropagated = l.isPropagated
  isInitialized : other.isInitialized = l.isInitialized

/-- Calls that raise leave their handlers at the first log, one after the other, and nothing else but
a level. -/
theorem callAll_of_refused (fresh : l.isInitialized = false)
    (refused : ∀ c ∈ calls, c.isAccepted = false) :
    l.AgreesBelow (l.callAll calls) ∧
      (l.callAll calls).formats = l.formats ++ calls.flatMap SetUp.handlers := by
  -- From the end: the last call meets the logs that the others left, and these are still not set up.
  induction calls using List.reverseRecOn with
  | nil => exact ⟨⟨rfl, rfl, rfl, rfl⟩, (List.append_nil _).symm⟩
  | append_singleton calls c ih =>
      rw [List.forall_mem_append, List.forall_mem_singleton] at refused
      obtain ⟨below, handlers⟩ := ih refused.1
      have still : (l.callAll calls).isInitialized = false := below.isInitialized.trans fresh
      obtain ⟨accepted, -⟩ | ⟨-, fault, raises⟩ := call_of_fresh still c
      · exact absurd accepted (Bool.eq_false_iff.mp refused.2)
      · have left : l.callAll (calls ++ [c]) = (l.callAll calls).withTrace c := by
          rw [callAll_append]
          exact congrArg Prod.fst raises
        rw [left]
        refine ⟨⟨below.performanceLevel, below.performanceFormats, below.isPropagated,
          below.isInitialized⟩, ?_⟩
        rw [withTrace, handlers, List.flatMap_append, List.append_assoc, List.flatMap_singleton]

/-- A call that returns sets up logs alike, but for the handlers that are at the first one before. -/
theorem configured_of_agreesBelow {other : Logging} (below : l.AgreesBelow other)
    (accepted : c.isAccepted = true) :
    other.configured c = { l.configured c with formats := other.formats ++ c.handlers } := by
  obtain ⟨level, formats, performanceLevel, performanceFormats, isPropagated, isInitialized⟩ := other
  obtain ⟨rfl, rfl, rfl, rfl⟩ := below
  obtain ⟨number, given⟩ := c.exists_givenLevel? accepted
  simp only [configured, withTrace, given]
  cases c.file <;> rfl

/-- After calls of which one returns, the logs are as the first of these sets them up, behind the handlers
of those that raised before it. -/
theorem callAll_of_accepted (fresh : l.isInitialized = false) {failed later : List SetUp}
    (refused : ∀ c ∈ failed, c.isAccepted = false) (accepted : c.isAccepted = true) :
    l.callAll (failed ++ c :: later) = { (l.call c).1 with
      formats := l.formats ++ failed.flatMap SetUp.handlers ++ c.handlers } := by
  obtain ⟨below, handlers⟩ := callAll_of_refused fresh refused
  have still : (l.callAll failed).isInitialized = false := below.isInitialized.trans fresh
  rw [callAll_append, callAll_cons, call_of_accepted still accepted,
    callAll_of_initialized (isInitialized_configured _ c), configured_of_agreesBelow below accepted,
    call_of_accepted fresh accepted, handlers]

/-! ## Whole runs -/

/-- The calls up to the first one that returns, with that one. -/
def effective : List SetUp → List SetUp
  | [] => []
  | c :: rest => if c.isAccepted then [c] else c :: effective rest

/-- Either all of some calls raise, or there is a first one that returns. -/
theorem effective_cases (calls : List SetUp) :
    ((∀ c ∈ calls, c.isAccepted = false) ∧ effective calls = calls) ∨
      ∃ failed first later, calls = failed ++ first :: later ∧
        (∀ c ∈ failed, c.isAccepted = false) ∧ first.isAccepted = true ∧
        effective calls = failed ++ [first] := by
  induction calls with
  | nil => exact Or.inl ⟨nofun, rfl⟩
  | cons c rest ih =>
      rw [effective]
      cases accepted : c.isAccepted with
      | true => exact Or.inr ⟨[], c, rest, rfl, nofun, accepted, rfl⟩
      | false =>
          rw [if_neg Bool.false_ne_true]
          rcases ih with ⟨refused, all⟩ | ⟨failed, first, later, rfl, refused, accepted', parts⟩
          · exact Or.inl ⟨List.forall_mem_cons.mpr ⟨accepted, refused⟩, by rw [all]⟩
          · exact Or.inr ⟨c :: failed, first, later, rfl,
              List.forall_mem_cons.mpr ⟨accepted, refused⟩, accepted', by rw [parts, List.cons_append]⟩

/-- What logs that were not set up hold after calls. -/
structure IsAfter (l : Logging) (calls : List SetUp) (after : Logging) : Prop where
  formats : after.formats = l.formats ++ (effective calls).flatMap SetUp.handlers
  performanceFormats : after.performanceFormats.length ≤ l.performanceFormats.length + 1
  isInitialized : after.isInitialized = calls.any SetUp.isAccepted

theorem length_performanceFormats_configured (l : Logging) (c : SetUp) :
    (l.configured c).performanceFormats.length ≤ l.performanceFormats.length + 1 := by
  rw [configured]
  split
  · exact Nat.le_of_eq (List.length_append ..)
  · exact Nat.le_succ _

theorem isAfter_callAll (fresh : l.isInitialized = false) (calls : List SetUp) :
    l.IsAfter calls (l.callAll calls) := by
  obtain ⟨refused, all⟩ | ⟨failed, first, later, rfl, refused, accepted, parts⟩ := effective_cases calls
  · obtain ⟨below, handlers⟩ := callAll_of_refused fresh refused
    refine ⟨by rw [handlers, all], ?_, ?_⟩
    · rw [below.performanceFormats]
      exact Nat.le_succ _
    · rw [below.isInitialized, fresh, eq_comm, List.any_eq_false]
      exact fun c member => Bool.eq_false_iff.mp (refused c member)
  · rw [callAll_of_accepted fresh refused accepted, call_of_accepted fresh accepted]
    refine ⟨?_, l.length_performanceFormats_configured first, ?_⟩
    · rw [parts, List.flatMap_append, List.flatMap_singleton, List.append_assoc]
    · rw [List.any_append, List.any_cons, accepted, Bool.true_or, Bool.or_true]
      exact l.isInitialized_configured first

/-- In a run, a call raises when it and all before it are refused something, and then it leaves its
trace. -/
theorem call_callAll (fresh : l.isInitialized = false) (before : List SetUp) (c : SetUp) :
    (((∀ earlier ∈ before, earlier.isAccepted = false) ∧ c.isAccepted = false) ∧
      ∃ fault, (l.callAll before).call c = ((l.callAll before).withTrace c, .error fault)) ∨
    ¬ ((∀ earlier ∈ before, earlier.isAccepted = false) ∧ c.isAccepted = false) ∧
      ((l.callAll before).call c).2 = .ok () := by
  have ready := (isAfter_callAll fresh before).isInitialized
  cases some : before.any SetUp.isAccepted with
  | true =>
      rw [some] at ready
      refine Or.inr ⟨fun refused => ?_, by rw [call_of_initialized ready]⟩
      obtain ⟨earlier, member, accepted⟩ := List.any_eq_true.mp some
      exact absurd accepted (Bool.eq_false_iff.mp (refused.1 earlier member))
  | false =>
      rw [some] at ready
      obtain ⟨accepted, returns⟩ | ⟨refused, raises⟩ := call_of_fresh ready c
      · exact Or.inr ⟨fun refused => absurd accepted (Bool.eq_false_iff.mp refused.2),
          congrArg Prod.snd returns⟩
      · refine Or.inl ⟨⟨fun earlier member => ?_, refused⟩, raises⟩
        exact Bool.eq_false_iff.mpr (List.any_eq_false.mp some earlier member)

/-- What calls make of logs that are not set up.  A call raises when it and all before it are refused
something; it leaves a handler and a level at the first log, and nothing only when its format is
refused.  After any calls, the first log has one handler more for each of them that has a proper format
and comes no later than the first that returns, the log of timings has at most one more, and but for
the handlers of calls that raised the logs are as the first call that returned sets them up. -/
theorem callAll_of_fresh (fresh : l.isInitialized = false) :
    (∀ (before : List SetUp) (c : SetUp),
      ((∃ fault, ((l.callAll before).call c).2 = .error fault) ↔
        (∀ earlier ∈ before, earlier.isAccepted = false) ∧ c.isAccepted = false) ∧
      ∀ fault, ((l.callAll before).call c).2 = .error fault →
        ((l.callAll before).call c).1 = (l.callAll before).withTrace c ∧
        (((l.callAll before).call c).1 = l.callAll before ↔ isFormat c.chosenFormat = false)) ∧
    (∀ calls : List SetUp, l.IsAfter calls (l.callAll calls)) ∧
    ∀ (failed : List SetUp) (first : SetUp) (later : List SetUp),
      (∀ c ∈ failed, c.isAccepted = false) → first.isAccepted = true →
        l.callAll (failed ++ first :: later) = { (l.call first).1 with
          formats := l.formats ++ failed.flatMap SetUp.handlers ++ first.handlers } := by
  refine ⟨fun before c => ?_, isAfter_callAll fresh, fun failed first later refused accepted =>
    callAll_of_accepted fresh refused accepted⟩
  obtain ⟨refused, fault, raises⟩ | ⟨returned, returns⟩ := call_callAll fresh before c
  · rw [raises]
    exact ⟨iff_of_true ⟨fault, rfl⟩ refused, fun _ _ => ⟨rfl, withTrace_eq_self_iff _ c⟩⟩
  · rw [returns]
    exact ⟨iff_of_false (fun ⟨_, raised⟩ => nomatch raised) returned, fun _ raised => nomatch raised⟩

/-! ## A file that cannot be opened -/

/-- A call with a file that cannot be opened. -/
def refusedFile : SetUp :=
  ⟨.int defaultLevel, defaultFormat, .refused "/nonexistent/performance.log"⟩

/-- A call with a level that there is not. -/
def refusedLevel : SetUp :=
  ⟨.text "LOUD", defaultFormat, .unwanted⟩

/-- A call that asks for nothing in particular. -/
def plain : SetUp :=
  ⟨.int defaultLevel, defaultFormat, .unwanted⟩

/-- Two calls that raise, each with another thing refused, and one that returns. -/
theorem callAll_of_fresh_refusedFile :
    initial.isInitialized = false ∧
    ((initial.callAll [refusedFile]).call refusedLevel).1 =
      (initial.callAll [refusedFile]).withTrace refusedLevel ∧
    initial.callAll ([refusedFile, refusedLevel] ++ [plain]) = { (initial.call plain).1 with
      formats := [defaultFormat, defaultFormat, defaultFormat] } := by
  have refused : ∀ c ∈ [refusedFile, refusedLevel], c.isAccepted = false := by decide
  have both := (callAll_of_fresh (l := initial) rfl).1 [refusedFile] refusedLevel
  obtain ⟨fault, raised⟩ := both.1.mpr ⟨List.forall_mem_singleton.mpr (by decide), by decide⟩
  refine ⟨rfl, (both.2 fault raised).1, ?_⟩
  exact (callAll_of_fresh (l := initial) rfl).2.2 [refusedFile, refusedLevel] plain [] refused (by decide)

/-- Set-up that is all or nothing: a call that raises leaves the logs as they were, so that after any
calls each log has at most one handler, and the logs are as the first call that returned sets them
up. -/
structure ConfiguresOnce : Prop where
  raising : ∀ (before : List SetUp) (c : SetUp) fault,
    ((initial.callAll before).call c).2 = .error fault →
      ((initial.callAll before).call c).1 = initial.callAll before
  handlers : ∀ calls, (initial.callAll calls).formats.length ≤ 1 ∧
    (initial.callAll calls).performanceFormats.length ≤ 1
  first : ∀ (failed : List SetUp) (first : SetUp) (later : List SetUp),
    (∀ c ∈ failed, c.isAccepted = false) → first.isAccepted = true →
      initial.callAll (failed ++ first :: later) = (initial.call first).1

/-- A file that cannot be opened leaves a handler behind, and the next call brings another one. -/
theorem not_configuresOnce : ¬ ConfiguresOnce := by
  intro once
  have handlers := (once.handlers [refusedFile, plain]).1
  have two : (initial.callAll [refusedFile, plain]).formats = [defaultFormat, defaultFormat] := by
    decide
  rw [two] at handlers
  exact absurd handlers (by decide)

end Logging

end DocumentGateway
