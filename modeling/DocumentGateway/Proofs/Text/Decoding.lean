import DocumentGateway.Proofs.Xml.ScalarText

namespace DocumentGateway

/-!
# Decoding undoes encoding

Octets are decoded into characters exactly when they are the octets of those characters.  The
decoder goes octet by octet, so what is shown of it is said for every state that it can be in:
between characters, the octets that may follow are those of a text; in the middle of a character,
they complete the character first.  One octet keeps this correspondence, and so does the whole
string of octets.

That a first octet and what completes it are the octets of one character is a matter of numbers.
It is settled for each class of first octets; the bounds on the second octet exclude overlong
forms, surrogates and numbers beyond the code space.
-/

namespace Utf8

/-! ## The octets of one character -/

/-- A number outside the surrogates is the number of its character. -/
theorem toNat_ofNat {n : Nat} (h : n < 0xD800 ∨ 0xDFFF < n ∧ n < 0x110000) :
    (Char.ofNat n).toNat = n := by
  have valid : n.isValidChar := h
  rw [Char.ofNat, dif_pos valid]
  rfl

theorem toNat_lt (c : Char) : c.toNat < 0xD800 ∨ 0xDFFF < c.toNat ∧ c.toNat < 0x110000 :=
  c.valid

theorem toNat_octet {n : Nat} (h : n < 256) : (UInt8.ofNat n).toNat = n :=
  UInt8.toNat_ofNat_of_lt' h

/-- An octet is known by its number. -/
theorem octet_eq {n : Nat} {b : UInt8} (h : n = b.toNat) : UInt8.ofNat n = b := by
  rw [h, UInt8.ofNat_toNat]

theorem utf8EncodeChar_one {c : Char} (below : c.toNat < 0x80) :
    String.utf8EncodeChar c = [UInt8.ofNat c.toNat] :=
  if_pos (Nat.le_of_lt_succ below)

theorem utf8EncodeChar_two {c : Char} (above : 0x80 ≤ c.toNat) (below : c.toNat < 0x800) :
    String.utf8EncodeChar c =
      [UInt8.ofNat (0xC0 + c.toNat / 64), UInt8.ofNat (0x80 + c.toNat % 64)] := by
  have first : c.toNat / 64 % 32 + 192 = 0xC0 + c.toNat / 64 := by omega
  rw [← first, Nat.add_comm 0x80]
  exact (if_neg (Nat.not_le_of_lt above)).trans (if_pos (Nat.le_of_lt_succ below))

theorem utf8EncodeChar_three {c : Char} (above : 0x800 ≤ c.toNat) (below : c.toNat < 0x10000) :
    String.utf8EncodeChar c =
      [UInt8.ofNat (0xE0 + c.toNat / 4096), UInt8.ofNat (0x80 + c.toNat / 64 % 64),
        UInt8.ofNat (0x80 + c.toNat % 64)] := by
  have notOne : ¬ c.toNat ≤ 0x7F := by omega
  have first : c.toNat / 4096 % 16 + 224 = 0xE0 + c.toNat / 4096 := by omega
  rw [← first, Nat.add_comm 0x80, Nat.add_comm 0x80]
  exact (if_neg notOne).trans
    ((if_neg (Nat.not_le_of_lt above)).trans (if_pos (Nat.le_of_lt_succ below)))

theorem utf8EncodeChar_four {c : Char} (above : 0x10000 ≤ c.toNat) :
    String.utf8EncodeChar c =
      [UInt8.ofNat (0xF0 + c.toNat / 262144), UInt8.ofNat (0x80 + c.toNat / 4096 % 64),
        UInt8.ofNat (0x80 + c.toNat / 64 % 64), UInt8.ofNat (0x80 + c.toNat % 64)] := by
  have valid := toNat_lt c
  have notOne : ¬ c.toNat ≤ 0x7F := by omega
  have notTwo : ¬ c.toNat ≤ 0x7FF := by omega
  have first : c.toNat / 262144 % 8 + 240 = 0xF0 + c.toNat / 262144 := by omega
  rw [← first, Nat.add_comm 0x80, Nat.add_comm 0x80, Nat.add_comm 0x80]
  exact (if_neg notOne).trans ((if_neg notTwo).trans (if_neg (Nat.not_le_of_lt above)))

/-- The first octet of a character tells how large the number of the character is. -/
theorem toNat_first {b : UInt8} {tail : Bytes} {c : Char}
    (encoded : String.utf8EncodeChar c = b :: tail) :
    c.toNat < 0x80 ∧ b.toNat = c.toNat ∨
      0x80 ≤ c.toNat ∧ c.toNat < 0x800 ∧ b.toNat = 0xC0 + c.toNat / 64 ∨
      0x800 ≤ c.toNat ∧ c.toNat < 0x10000 ∧ b.toNat = 0xE0 + c.toNat / 4096 ∨
      0x10000 ≤ c.toNat ∧ b.toNat = 0xF0 + c.toNat / 262144 := by
  have valid := toNat_lt c
  by_cases one : c.toNat < 0x80
  · rw [utf8EncodeChar_one one] at encoded
    cases encoded
    exact Or.inl ⟨one, toNat_octet (by omega)⟩
  by_cases two : c.toNat < 0x800
  · rw [utf8EncodeChar_two (by omega) two] at encoded
    cases encoded
    exact Or.inr (Or.inl ⟨by omega, two, toNat_octet (by omega)⟩)
  by_cases three : c.toNat < 0x10000
  · rw [utf8EncodeChar_three (by omega) three] at encoded
    cases encoded
    exact Or.inr (Or.inr (Or.inl ⟨by omega, three, toNat_octet (by omega)⟩))
  · rw [utf8EncodeChar_four (by omega)] at encoded
    cases encoded
    exact Or.inr (Or.inr (Or.inr ⟨by omega, toNat_octet (by omega)⟩))

/-! ## What completes a character -/

namespace Pending

/-- The number spelled so far, with one more octet. -/
def valueWith (p : Pending) (b : UInt8) : Nat :=
  64 * p.value + (b.toNat - 0x80)

/-- What is owed after one more octet that is not the last. -/
def next (p : Pending) (b : UInt8) : Pending :=
  ⟨p.first, p.taken + 1, p.owed - 1, 0x80, 0xBF, p.valueWith b⟩

/-- Whether octets complete an unfinished character. -/
def Completes : Pending → Bytes → Char → Prop
  | _, [], _ => False
  | p, b :: rest, c =>
    (p.low ≤ b ∧ b ≤ p.high) ∧
      if p.owed = 1 then rest = [] ∧ Char.ofNat (p.valueWith b) = c
      else Completes (p.next b) rest c

variable {p : Pending} (tail : Bytes) (c : Char)

/-- The last octet that is owed. -/
theorem completes_last (owed : p.owed = 1) :
    p.Completes tail c ↔
      ∃ x, tail = [x] ∧ (p.low.toNat ≤ x.toNat ∧ x.toNat ≤ p.high.toNat) ∧
        Char.ofNat (p.valueWith x) = c := by
  cases tail with
  | nil => simp [Completes]
  | cons x rest =>
      rw [Completes, if_pos owed]
      constructor
      · rintro ⟨range, rfl, same⟩
        exact ⟨x, rfl, range, same⟩
      · rintro ⟨y, cons, range, same⟩
        cases cons
        exact ⟨range, rfl, same⟩

/-- An octet with more behind it. -/
theorem completes_more (owed : p.owed ≠ 1) :
    p.Completes tail c ↔
      ∃ x rest, tail = x :: rest ∧ (p.low.toNat ≤ x.toNat ∧ x.toNat ≤ p.high.toNat) ∧
        (p.next x).Completes rest c := by
  cases tail with
  | nil => simp [Completes]
  | cons x rest =>
      rw [Completes, if_neg owed]
      constructor
      · rintro ⟨range, others⟩
        exact ⟨x, rest, rfl, range, others⟩
      · rintro ⟨y, more, cons, range, others⟩
        cases cons
        exact ⟨range, others⟩

/-- A number that is spelled is that of the character, if it is the number of one. -/
theorem toNat_eq {n : Nat} (spelled : Char.ofNat (p.valueWith x) = c) (value : p.valueWith x = n)
    (valid : n < 0xD800 ∨ 0xDFFF < n ∧ n < 0x110000) : c.toNat = n := by
  rw [← spelled, value, toNat_ofNat valid]

theorem ofNat_eq (value : p.valueWith x = c.toNat) : Char.ofNat (p.valueWith x) = c := by
  rw [value, Char.ofNat_toNat]

theorem completes_two {b : UInt8} (owed : p.owed = 1) (value : b.toNat = 0xC0 + p.value)
    (low : p.low.toNat = 0x80) (high : p.high.toNat = 0xBF)
    (range : 0xC2 ≤ b.toNat ∧ b.toNat < 0xE0) :
    p.Completes tail c ↔ String.utf8EncodeChar c = b :: tail := by
  rw [completes_last tail c owed, low, high]
  constructor
  · rintro ⟨x, rfl, second, spelled⟩
    have number : c.toNat = 64 * p.value + (x.toNat - 0x80) :=
      toNat_eq c spelled rfl (by omega)
    rw [utf8EncodeChar_two (by omega) (by omega), octet_eq (b := b) (by omega),
      octet_eq (b := x) (by omega)]
  · intro encoded
    have first := toNat_first encoded
    rw [utf8EncodeChar_two (by omega) (by omega)] at encoded
    cases encoded
    have last : (UInt8.ofNat (0x80 + c.toNat % 64)).toNat = 0x80 + c.toNat % 64 :=
      toNat_octet (by omega)
    refine ⟨_, rfl, by omega, ofNat_eq c ?_⟩
    change 64 * p.value + (_ - 0x80) = c.toNat
    omega

theorem completes_three {b : UInt8} (owed : p.owed = 2) (value : b.toNat = 0xE0 + p.value)
    (bounds : ∀ n, p.low.toNat ≤ n ∧ n ≤ p.high.toNat ↔
      (0x80 ≤ n ∧ n ≤ 0xBF) ∧ (b.toNat = 0xE0 → 0xA0 ≤ n) ∧ (b.toNat = 0xED → n ≤ 0x9F))
    (range : 0xE0 ≤ b.toNat ∧ b.toNat < 0xF0) :
    p.Completes tail c ↔ String.utf8EncodeChar c = b :: tail := by
  have one (x : UInt8) (rest : Bytes) := completes_last (p := p.next x) rest c (by rw [next, owed])
  rw [completes_more tail c (by omega)]
  simp only [one, bounds]
  constructor
  · rintro ⟨x, _, rfl, second, y, rfl, third, spelled⟩
    change 0x80 ≤ y.toNat ∧ y.toNat ≤ 0xBF at third
    have number : c.toNat = 64 * (64 * p.value + (x.toNat - 0x80)) + (y.toNat - 0x80) :=
      toNat_eq c spelled rfl (by omega)
    rw [utf8EncodeChar_three (by omega) (by omega), octet_eq (b := b) (by omega),
      octet_eq (b := x) (by omega), octet_eq (b := y) (by omega)]
  · intro encoded
    have valid := toNat_lt c
    have first := toNat_first encoded
    rw [utf8EncodeChar_three (by omega) (by omega)] at encoded
    cases encoded
    have second : (UInt8.ofNat (0x80 + c.toNat / 64 % 64)).toNat = 0x80 + c.toNat / 64 % 64 :=
      toNat_octet (by omega)
    have third : (UInt8.ofNat (0x80 + c.toNat % 64)).toNat = 0x80 + c.toNat % 64 :=
      toNat_octet (by omega)
    refine ⟨_, _, rfl, by omega, _, rfl, ?_, ofNat_eq c ?_⟩
    · change 0x80 ≤ UInt8.toNat _ ∧ UInt8.toNat _ ≤ 0xBF
      omega
    · change 64 * (64 * p.value + (_ - 0x80)) + (_ - 0x80) = c.toNat
      omega

theorem completes_four {b : UInt8} (owed : p.owed = 3) (value : b.toNat = 0xF0 + p.value)
    (bounds : ∀ n, p.low.toNat ≤ n ∧ n ≤ p.high.toNat ↔
      (0x80 ≤ n ∧ n ≤ 0xBF) ∧ (b.toNat = 0xF0 → 0x90 ≤ n) ∧ (b.toNat = 0xF4 → n ≤ 0x8F))
    (range : 0xF0 ≤ b.toNat ∧ b.toNat < 0xF5) :
    p.Completes tail c ↔ String.utf8EncodeChar c = b :: tail := by
  have two (x : UInt8) (rest : Bytes) :=
    completes_more (p := p.next x) rest c (by simp [next, owed])
  have one (x y : UInt8) (rest : Bytes) :=
    completes_last (p := (p.next x).next y) rest c (by simp [next, owed])
  rw [completes_more tail c (by omega)]
  simp only [two, one, bounds]
  constructor
  · rintro ⟨x, _, rfl, second, y, _, rfl, third, z, rfl, fourth, spelled⟩
    change 0x80 ≤ y.toNat ∧ y.toNat ≤ 0xBF at third
    change 0x80 ≤ z.toNat ∧ z.toNat ≤ 0xBF at fourth
    have number : c.toNat = 64 * (64 * (64 * p.value + (x.toNat - 0x80)) + (y.toNat - 0x80)) +
        (z.toNat - 0x80) := toNat_eq c spelled rfl (by omega)
    rw [utf8EncodeChar_four (by omega), octet_eq (b := b) (by omega),
      octet_eq (b := x) (by omega), octet_eq (b := y) (by omega), octet_eq (b := z) (by omega)]
  · intro encoded
    have valid := toNat_lt c
    have first := toNat_first encoded
    rw [utf8EncodeChar_four (by omega)] at encoded
    cases encoded
    have second : (UInt8.ofNat (0x80 + c.toNat / 4096 % 64)).toNat = 0x80 + c.toNat / 4096 % 64 :=
      toNat_octet (by omega)
    have third : (UInt8.ofNat (0x80 + c.toNat / 64 % 64)).toNat = 0x80 + c.toNat / 64 % 64 :=
      toNat_octet (by omega)
    have fourth : (UInt8.ofNat (0x80 + c.toNat % 64)).toNat = 0x80 + c.toNat % 64 :=
      toNat_octet (by omega)
    refine ⟨_, _, rfl, by omega, _, _, rfl, ?_, _, rfl, ?_, ofNat_eq c ?_⟩
    · change 0x80 ≤ UInt8.toNat _ ∧ UInt8.toNat _ ≤ 0xBF
      omega
    · change 0x80 ≤ UInt8.toNat _ ∧ UInt8.toNat _ ≤ 0xBF
      omega
    · change 64 * (64 * (64 * p.value + (_ - 0x80)) + (_ - 0x80)) + (_ - 0x80) = c.toNat
      omega

end Pending

/-! ## First octets -/

theorem start_one {b : UInt8} (below : b.toNat < 0x80) : start b = .whole (Char.ofNat b.toNat) :=
  if_pos (UInt8.lt_iff_toNat_lt.mpr below)

theorem start_two {b : UInt8} (range : 0xC2 ≤ b.toNat ∧ b.toNat < 0xE0) :
    start b = .pending ⟨b, 1, 1, 0x80, 0xBF, b.toNat - 0xC0⟩ := by
  unfold start
  simp only [UInt8.lt_iff_toNat_lt, UInt8.reduceToNat]
  rw [if_neg (by omega), if_neg (by omega), if_pos range.2]

theorem start_three {b : UInt8} (range : 0xE0 ≤ b.toNat ∧ b.toNat < 0xF0) :
    start b = .pending ⟨b, 1, 2, if b = 0xE0 then 0xA0 else 0x80, if b = 0xED then 0x9F else 0xBF,
      b.toNat - 0xE0⟩ := by
  unfold start
  simp only [UInt8.lt_iff_toNat_lt, UInt8.reduceToNat]
  rw [if_neg (by omega), if_neg (by omega), if_neg (by omega), if_pos range.2]

theorem start_four {b : UInt8} (range : 0xF0 ≤ b.toNat ∧ b.toNat < 0xF5) :
    start b = .pending ⟨b, 1, 3, if b = 0xF0 then 0x90 else 0x80, if b = 0xF4 then 0x8F else 0xBF,
      b.toNat - 0xF0⟩ := by
  unfold start
  simp only [UInt8.lt_iff_toNat_lt, UInt8.reduceToNat]
  rw [if_neg (by omega), if_neg (by omega), if_neg (by omega), if_neg (by omega), if_pos range.2]

theorem start_invalid {b : UInt8} (h : 0x80 ≤ b.toNat ∧ b.toNat < 0xC2 ∨ 0xF5 ≤ b.toNat) :
    start b = .invalid := by
  unfold start
  simp only [UInt8.lt_iff_toNat_lt, UInt8.reduceToNat]
  rcases h with ⟨above, below⟩ | above
  · rw [if_neg (by omega), if_pos below]
  · rw [if_neg (by omega), if_neg (by omega), if_neg (by omega), if_neg (by omega),
      if_neg (by omega)]

/-- The bounds on an octet, when the lower one is higher behind one first octet and the upper one is
lower behind another. -/
theorem bounds_iff {b first last low high : UInt8} {n : Nat} (lowest : 0x80 ≤ low.toNat)
    (highest : high.toNat ≤ 0xBF) :
    (if b = first then low else 0x80).toNat ≤ n ∧ n ≤ (if b = last then high else 0xBF).toNat ↔
      (0x80 ≤ n ∧ n ≤ 0xBF) ∧ (b.toNat = first.toNat → low.toNat ≤ n) ∧
        (b.toNat = last.toNat → n ≤ high.toNat) := by
  have whole : (0x80 : UInt8).toNat = 0x80 ∧ (0xBF : UInt8).toNat = 0xBF := ⟨rfl, rfl⟩
  split <;> split <;> rename_i isFirst isLast <;> rw [← UInt8.toNat_inj] at isFirst isLast <;> omega

/-- A first octet begins a whole character or an unfinished one, and a character begins with no other
octet. -/
theorem utf8EncodeChar_eq_cons_iff (b : UInt8) (tail : Bytes) (c : Char) :
    String.utf8EncodeChar c = b :: tail ↔
      start b = .whole c ∧ tail = [] ∨ ∃ p, start b = .pending p ∧ p.Completes tail c := by
  by_cases one : b.toNat < 0x80
  · rw [start_one one]
    constructor
    · intro encoded
      have first := toNat_first encoded
      rw [utf8EncodeChar_one (by omega)] at encoded
      cases encoded
      rw [toNat_octet (by omega), Char.ofNat_toNat]
      exact Or.inl ⟨rfl, rfl⟩
    · rintro (⟨same, rfl⟩ | ⟨p, begun, -⟩)
      · have number : c.toNat = b.toNat := by
          rw [← Start.whole.inj same, toNat_ofNat (by omega)]
        rw [utf8EncodeChar_one (by omega), octet_eq number]
      · exact absurd begun (by simp)
  have whenPending {p : Pending} (begun : start b = .pending p)
      (completes : p.Completes tail c ↔ String.utf8EncodeChar c = b :: tail) :
      String.utf8EncodeChar c = b :: tail ↔
        start b = .whole c ∧ tail = [] ∨ ∃ p, start b = .pending p ∧ p.Completes tail c := by
    rw [begun, ← completes]
    simp
  by_cases two : 0xC2 ≤ b.toNat ∧ b.toNat < 0xE0
  · exact whenPending (start_two two)
      (Pending.completes_two tail c rfl (by dsimp only; omega) rfl rfl two)
  by_cases three : 0xE0 ≤ b.toNat ∧ b.toNat < 0xF0
  · exact whenPending (start_three three)
      (Pending.completes_three tail c rfl (by dsimp only; omega)
        (fun n => bounds_iff (by decide) (by decide)) three)
  by_cases four : 0xF0 ≤ b.toNat ∧ b.toNat < 0xF5
  · exact whenPending (start_four four)
      (Pending.completes_four tail c rfl (by dsimp only; omega)
        (fun n => bounds_iff (by decide) (by decide)) four)
  · rw [start_invalid (by omega)]
    have impossible : String.utf8EncodeChar c ≠ b :: tail := by
      intro encoded
      have valid := toNat_lt c
      have first := toNat_first encoded
      omega
    simp [impossible]

/-! ## Whole strings of octets -/

theorem utf8Octets_cons (c : Char) (chars : List Char) :
    utf8Octets (c :: chars) = String.utf8EncodeChar c ++ utf8Octets chars :=
  List.flatMap_cons

theorem utf8EncodeChar_ne_nil (c : Char) : String.utf8EncodeChar c ≠ [] := by
  intro none
  have size := String.length_utf8EncodeChar c
  rw [none] at size
  exact absurd size.symm (Nat.ne_of_gt (Char.utf8Size_pos c))

/-- Whether octets can follow in a state of the decoder, and as which characters.  Between characters
they are the octets of the characters; otherwise they complete the first one before. -/
def Follows : Option Pending → Bytes → List Char → Prop
  | none, bytes, chars => utf8Octets chars = bytes
  | some p, bytes, chars =>
    ∃ tail c more, bytes = tail ++ utf8Octets more ∧ chars = c :: more ∧ p.Completes tail c

theorem follows_none_nil (chars : List Char) : Follows none [] chars ↔ chars = [] := by
  cases chars with
  | nil => simp [Follows, utf8Octets]
  | cons c more =>
      have some := utf8EncodeChar_ne_nil c
      simp [Follows, utf8Octets_cons, some]

theorem not_follows_some_nil (p : Pending) (chars : List Char) : ¬ Follows (some p) [] chars := by
  rintro ⟨tail, c, more, none, -, completes⟩
  rw [(List.append_eq_nil_iff.mp none.symm).1] at completes
  exact completes

/-- Between characters, an octet is a character or begins one. -/
theorem follows_none_cons (b : UInt8) (rest : Bytes) (chars : List Char) :
    Follows none (b :: rest) chars ↔
      (∃ c more, start b = .whole c ∧ chars = c :: more ∧ Follows none rest more) ∨
        ∃ p, start b = .pending p ∧ Follows (some p) rest chars := by
  constructor
  · intro follows
    cases chars with
    | nil => exact absurd follows (by simp [Follows, utf8Octets])
    | cons c more =>
        rw [Follows, utf8Octets_cons] at follows
        obtain ⟨first, tail, encoded⟩ := List.exists_cons_of_ne_nil (utf8EncodeChar_ne_nil c)
        rw [encoded, List.cons_append] at follows
        rcases List.cons.inj follows with ⟨rfl, behind⟩
        rcases (utf8EncodeChar_eq_cons_iff first tail c).mp encoded with ⟨whole, rfl⟩ | ⟨p, begun, completes⟩
        · exact Or.inl ⟨c, more, whole, rfl, behind⟩
        · exact Or.inr ⟨p, begun, tail, c, more, behind.symm, rfl, completes⟩
  · rintro (⟨c, more, whole, rfl, behind⟩ | ⟨p, begun, tail, c, more, rfl, rfl, completes⟩)
    · have encoded := (utf8EncodeChar_eq_cons_iff b [] c).mpr (Or.inl ⟨whole, rfl⟩)
      have same : utf8Octets more = rest := behind
      rw [Follows, utf8Octets_cons, encoded, same, List.singleton_append]
    · have encoded := (utf8EncodeChar_eq_cons_iff b tail c).mpr (Or.inr ⟨p, begun, completes⟩)
      rw [Follows, utf8Octets_cons, encoded, List.cons_append]

/-- In the middle of a character, an octet within the bounds ends the character or goes on with it. -/
theorem follows_some_cons (p : Pending) (b : UInt8) (rest : Bytes) (chars : List Char) :
    Follows (some p) (b :: rest) chars ↔
      (p.low ≤ b ∧ b ≤ p.high) ∧
        if p.owed = 1 then ∃ more, chars = Char.ofNat (p.valueWith b) :: more ∧ Follows none rest more
        else Follows (some (p.next b)) rest chars := by
  constructor
  · rintro ⟨tail, c, more, split, rfl, completes⟩
    cases tail with
    | nil => exact completes.elim
    | cons x others =>
        rcases List.cons.inj split with ⟨rfl, behind⟩
        rcases completes with ⟨range, completes⟩
        refine ⟨range, ?_⟩
        by_cases last : p.owed = 1
        · rw [if_pos last] at completes ⊢
          rcases completes with ⟨rfl, rfl⟩
          exact ⟨more, rfl, behind.symm⟩
        · rw [if_neg last] at completes ⊢
          exact ⟨others, c, more, behind, rfl, completes⟩
  · rintro ⟨range, behind⟩
    by_cases last : p.owed = 1
    · rw [if_pos last] at behind
      rcases behind with ⟨more, rfl, same⟩
      have completes : p.Completes [b] (Char.ofNat (p.valueWith b)) := by
        rw [Pending.Completes, if_pos last]
        exact ⟨range, rfl, rfl⟩
      exact ⟨[b], _, more, by rw [← same, List.singleton_append], rfl, completes⟩
    · rw [if_neg last] at behind
      rcases behind with ⟨tail, c, more, rfl, rfl, completes⟩
      have whole : p.Completes (b :: tail) c := by
        rw [Pending.Completes, if_neg last]
        exact ⟨range, completes⟩
      exact ⟨b :: tail, c, more, rfl, rfl, whole⟩

theorem map_cons_eq_ok_iff {result : Except ε (List α)} {a : α} {all : List α} :
    (do return a :: (← result)) = Except.ok all ↔ ∃ more, all = a :: more ∧ result = .ok more := by
  cases result with
  | error fault => simp [bind, Except.bind]
  | ok found =>
      constructor
      · intro same
        exact ⟨found, (Except.ok.inj same).symm, rfl⟩
      · rintro ⟨more, rfl, same⟩
        rw [Except.ok.inj same]
        rfl

/-- In every state, octets are decoded into characters exactly when they can follow as those. -/
theorem decodeFrom_eq_ok_iff (state : Option Pending) (position : Nat) (bytes : Bytes)
    (chars : List Char) : decodeFrom state position bytes = .ok chars ↔ Follows state bytes chars := by
  induction bytes generalizing state position chars with
  | nil =>
      cases state with
      | none =>
          rw [follows_none_nil, decodeFrom]
          exact ⟨fun same => (Except.ok.inj same).symm, fun same => by rw [same]⟩
      | some p =>
          rw [decodeFrom]
          exact ⟨fun same => absurd same (by simp), fun follows => absurd follows (not_follows_some_nil p chars)⟩
  | cons b rest ih =>
      cases state with
      | none =>
          rw [follows_none_cons, decodeFrom]
          cases begun : start b with
          | whole c =>
              simp only [map_cons_eq_ok_iff, ih]
              simp
          | pending p => simp [ih]
          | invalid => simp
      | some p =>
          rw [follows_some_cons, decodeFrom]
          by_cases range : p.low ≤ b ∧ b ≤ p.high
          · have within : (p.low ≤ b && b ≤ p.high) = true := by simpa using range
            rw [if_pos within, and_iff_right range]
            split
            · simp only [map_cons_eq_ok_iff, ih]
              rfl
            · exact ih _ _ _
          · have outside : ¬ (p.low ≤ b && b ≤ p.high) = true := by simpa using range
            rw [if_neg outside]
            simp [range]

/-- Octets are decoded exactly into the characters that they are the octets of. -/
theorem decode_eq_ok_iff (bytes : Bytes) (chars : List Char) :
    decode bytes = .ok chars ↔ utf8Octets chars = bytes :=
  decodeFrom_eq_ok_iff none 0 bytes chars

end Utf8
end DocumentGateway
