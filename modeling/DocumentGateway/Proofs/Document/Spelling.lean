import DocumentGateway.Document
import DocumentGateway.Proofs.Peeling
import DocumentGateway.Proofs.Text.Decoding

namespace DocumentGateway

/-!
# Octets and their spellings

The octets of a document are spelled as a text in two ways.  Each way has its own texts: pairs of
hexadecimal digits in either case, or characters of which each is one octet.  A text of the chosen
way replaces the octets and is shown again as it was given, but for the case of its digits.  Any
other text is refused for its form, and the document stays as it was.
-/

/-! ## Hexadecimal digits -/

/-- The hexadecimal digits. -/
def IsHexDigit : CodePoint → Prop
  | .scalar c => ('0' ≤ c ∧ c ≤ '9') ∨ ('a' ≤ c ∧ c ≤ 'f') ∨ ('A' ≤ c ∧ c ≤ 'F')
  | .surrogate _ => False

instance : DecidablePred IsHexDigit
  | .scalar c =>
    inferInstanceAs (Decidable (('0' ≤ c ∧ c ≤ '9') ∨ ('a' ≤ c ∧ c ≤ 'f') ∨ ('A' ≤ c ∧ c ≤ 'F')))
  | .surrogate _ => .isFalse id

/-- A digit in lower case. -/
def lowerDigit : CodePoint → CodePoint
  | .scalar c => .scalar c.toLower
  | .surrogate offset => .surrogate offset

/-- The digits among the characters of ASCII, one by one. -/
theorem hexDigit_of_hexDigit?_below : ∀ n < 128, ∀ v, hexDigit? (Char.ofNat n) = some v →
    v < 16 ∧ hexDigit v = (Char.ofNat n).toLower := by
  decide +kernel

namespace CodePoint

/-- The value of a code point that is a hexadecimal digit. -/
def digit? (p : CodePoint) : Option Nat :=
  p.char?.bind hexDigit?

theorem isSome_digit?_iff (p : CodePoint) : p.digit?.isSome ↔ IsHexDigit p := by
  cases p with
  | surrogate offset => exact iff_of_false Bool.false_ne_true id
  | scalar c =>
      rw [digit?, char?, Option.bind_some, hexDigit?, IsHexDigit]
      split_ifs <;> simp_all

theorem code_of_isHexDigit {p : CodePoint} (h : IsHexDigit p) : p.code < 128 := by
  cases p with
  | surrogate offset => exact absurd h id
  | scalar c =>
      have bound : c.toNat ≤ 'f'.toNat := by
        rcases h with ⟨-, upper⟩ | ⟨-, upper⟩ | ⟨-, upper⟩
        · exact Nat.le_trans upper (by decide)
        · exact upper
        · exact Nat.le_trans upper (by decide)
      exact Nat.lt_of_le_of_lt bound (by decide)

/-- A digit has a value below sixteen, and is written with it in lower case. -/
theorem hexDigit_of_digit? {p : CodePoint} {v : Nat} (h : p.digit? = some v) :
    v < 16 ∧ .scalar (hexDigit v) = lowerDigit p := by
  have bound := code_of_isHexDigit ((isSome_digit?_iff p).mp (by rw [h]; rfl))
  cases p with
  | surrogate offset => cases h
  | scalar c =>
      have below := hexDigit_of_hexDigit?_below c.toNat bound v
      rw [Char.ofNat_toNat] at below
      exact (below h).imp_right fun written => congrArg CodePoint.scalar written

end CodePoint

namespace Hex

/-- The texts that spell octets in hexadecimal digits. -/
def IsSpelling (t : Text) : Prop :=
  t.length % 2 = 0 ∧ ∀ p ∈ t, IsHexDigit p

instance (t : Text) : Decidable (IsSpelling t) :=
  inferInstanceAs (Decidable (t.length % 2 = 0 ∧ ∀ p ∈ t, IsHexDigit p))

/-- Two digits are those of the octet that they are read as. -/
theorem encode_ofNat {high low : CodePoint} {h l : Nat} (readHigh : high.digit? = some h)
    (readLow : low.digit? = some l) (bytes : Bytes) :
    Text.ofChars (encode (UInt8.ofNat (16 * h + l) :: bytes)) =
      lowerDigit high :: lowerDigit low :: Text.ofChars (encode bytes) := by
  obtain ⟨highBound, highWritten⟩ := CodePoint.hexDigit_of_digit? readHigh
  obtain ⟨lowBound, lowWritten⟩ := CodePoint.hexDigit_of_digit? readLow
  have value : (UInt8.ofNat (16 * h + l)).toNat = 16 * h + l :=
    UInt8.toNat_ofNat_of_lt' (show 16 * h + l < 256 by omega)
  have highPart : (16 * h + l) / 16 % 16 = h := by omega
  have lowPart : (16 * h + l) % 16 = l := by omega
  rw [encode_cons, value, highPart, lowPart, Text.ofChars_cons, Text.ofChars_cons, highWritten,
    lowWritten]

/-- A spelling is read, and what was read is written with the same digits in lower case. -/
theorem exists_pairs_of_isSpelling {t : Text} (h : IsSpelling t) :
    ∃ bytes, pairs t = .ok bytes ∧ Text.ofChars (encode bytes) = t.map lowerDigit := by
  obtain ⟨even, digits⟩ := h
  induction t using pairs.induct with
  | case1 => exact ⟨[], rfl, rfl⟩
  | case2 p => exact absurd even (by simp)
  | case3 high low rest h l readLow readHigh ih =>
      rw [List.length_cons, List.length_cons] at even
      obtain ⟨bytes, found, written⟩ := ih (by omega) fun p member => digits p (by simp [member])
      refine ⟨UInt8.ofNat (16 * h + l) :: bytes, ?_, ?_⟩
      · simp only [pairs, readHigh, readLow, found]
        rfl
      · rw [encode_ofNat readHigh readLow, written]
        rfl
  | case4 high low rest unread =>
      obtain ⟨h, readHigh⟩ := Option.isSome_iff_exists.mp
        ((CodePoint.isSome_digit?_iff high).mpr (digits high (by simp)))
      obtain ⟨l, readLow⟩ := Option.isSome_iff_exists.mp
        ((CodePoint.isSome_digit?_iff low).mpr (digits low (by simp)))
      exact absurd readLow (unread h l readHigh)

/-- What is read is a spelling. -/
theorem isSpelling_of_pairs {t : Text} {bytes : Bytes} (h : pairs t = .ok bytes) : IsSpelling t := by
  induction t using pairs.induct generalizing bytes with
  | case1 => exact ⟨rfl, fun p member => absurd member List.not_mem_nil⟩
  | case2 p => cases h
  | case3 high low rest h' l readLow readHigh ih =>
      simp only [pairs, readHigh, readLow] at h
      obtain ⟨others, found, -⟩ := exists_of_bind_eq_ok h
      obtain ⟨even, digits⟩ := ih found
      rw [IsSpelling, List.length_cons, List.length_cons]
      refine ⟨by omega, ?_⟩
      have first := (CodePoint.isSome_digit?_iff high).mp (Option.isSome_of_eq_some readHigh)
      have second := (CodePoint.isSome_digit?_iff low).mp (Option.isSome_of_eq_some readLow)
      exact List.forall_mem_cons.mpr ⟨first, List.forall_mem_cons.mpr ⟨second, digits⟩⟩
  | case4 high low rest unread =>
      rw [pairs] at h
      split at h
      · next readHigh readLow => exact absurd readLow (unread _ _ readHigh)
      · cases h

/-- A text that spells octets is read as pairs of digits. -/
theorem decode_of_isSpelling {t : Text} (h : IsSpelling t) : decode t = pairs t := by
  have ascii : t.any (fun p => 128 ≤ p.code) = false := by
    rw [List.any_eq_false]
    intro p member
    simpa using CodePoint.code_of_isHexDigit (h.2 p member)
  rw [decode, ascii, ofDigits, if_neg Bool.false_ne_true, if_neg (by rw [h.1]; decide)]

theorem isSpelling_of_decode {t : Text} {bytes : Bytes} (h : decode t = .ok bytes) :
    IsSpelling t := by
  rw [decode, ofDigits] at h
  split_ifs at h
  exact isSpelling_of_pairs h

/-- What is written is a spelling. -/
theorem isSpelling_encode (bytes : Bytes) : IsSpelling (Text.ofChars (encode bytes)) :=
  isSpelling_of_pairs (pairs_encode bytes)

end Hex

/-! ## Characters of one octet -/

namespace Encoding

/-- Characters of one octet are encoded as octets that are shown as these characters. -/
theorem exists_encodeFrom_latin1 {t : Text} (single : ∀ p ∈ t, p.code ≤ 0xFF) (position : Nat) :
    ∃ bytes, latin1.encodeFrom position t = .ok bytes ∧ Text.ofChars (latin1Chars bytes) = t := by
  induction t generalizing position with
  | nil => exact ⟨[], rfl, rfl⟩
  | cons p rest ih =>
      obtain ⟨first, others⟩ := List.forall_mem_cons.mp single
      obtain ⟨bytes, found, shown⟩ := ih others (position + 1)
      cases p with
      | surrogate offset => exact absurd first (by rw [CodePoint.code]; omega)
      | scalar c =>
          have bound : c.toNat < 256 := Nat.lt_succ_of_le first
          have value : (UInt8.ofNat c.toNat).toNat = c.toNat := UInt8.toNat_ofNat_of_lt' bound
          refine ⟨UInt8.ofNat c.toNat :: bytes, ?_, ?_⟩
          · rw [encodeFrom, form?, if_pos bound, found]
            rfl
          · rw [latin1Chars, List.map_cons, value, Char.ofNat_toNat, Text.ofChars_cons]
            exact congrArg _ shown

/-- Only characters of one octet are encoded as one. -/
theorem code_of_encodeFrom_latin1 {t : Text} {position : Nat} {bytes : Bytes}
    (h : latin1.encodeFrom position t = .ok bytes) : ∀ p ∈ t, p.code ≤ 0xFF := by
  induction t generalizing position bytes with
  | nil => exact fun p member => absurd member List.not_mem_nil
  | cons p rest ih =>
      cases p with
      | surrogate offset => cases h
      | scalar c =>
          rw [encodeFrom, form?] at h
          split_ifs at h with bound
          obtain ⟨others, found, -⟩ := exists_of_bind_eq_ok h
          exact List.forall_mem_cons.mpr ⟨Nat.le_of_lt_succ bound, ih found⟩

theorem encodeFrom_latin1Chars (bytes : Bytes) (position : Nat) :
    latin1.encodeFrom position (Text.ofChars (latin1Chars bytes)) = .ok bytes := by
  induction bytes generalizing position with
  | nil => rfl
  | cons b bytes ih =>
      have bound : b.toNat < 256 := b.toNat_lt_size
      have value : (Char.ofNat b.toNat).toNat = b.toNat :=
        Utf8.toNat_ofNat (.inl (by omega))
      rw [latin1Chars, List.map_cons, Text.ofChars_cons, encodeFrom, form?, value, if_pos bound]
      rw [latin1Chars] at ih
      rw [ih, UInt8.ofNat_toNat]
      rfl

end Encoding

/-! ## Spellings -/

namespace BinaryEncoding

/-- The texts that spell octets. -/
def Admits : BinaryEncoding → Text → Prop
  | hex, t => Hex.IsSpelling t
  | bin, t => ∀ p ∈ t, p.code ≤ 0xFF

instance (encoding : BinaryEncoding) (t : Text) : Decidable (encoding.Admits t) :=
  match encoding with
  | hex => inferInstanceAs (Decidable (Hex.IsSpelling t))
  | bin => inferInstanceAs (Decidable (∀ p ∈ t, p.code ≤ 0xFF))

/-- The text that octets are shown as when they were given as a text. -/
def shownAs : BinaryEncoding → Text → Text
  | hex, t => t.map lowerDigit
  | bin, t => t

/-- A text that spells octets is read, and the octets are shown as that text. -/
theorem exists_read_of_admits {encoding : BinaryEncoding} {t : Text} (h : encoding.Admits t) :
    ∃ bytes, encoding.read t = .ok bytes ∧ encoding.spell bytes = encoding.shownAs t := by
  cases encoding with
  | hex =>
      obtain ⟨bytes, found, written⟩ := Hex.exists_pairs_of_isSpelling h
      exact ⟨bytes, by rw [read, Hex.decode_of_isSpelling h, found]; rfl, written⟩
  | bin =>
      obtain ⟨bytes, found, shown⟩ := Encoding.exists_encodeFrom_latin1 h 0
      exact ⟨bytes, by rw [read, Encoding.encode, found]; rfl, shown⟩

/-- Only texts that spell octets are read. -/
theorem admits_of_read {encoding : BinaryEncoding} {t : Text} {bytes : Bytes}
    (h : encoding.read t = .ok bytes) : encoding.Admits t := by
  cases encoding with
  | hex => exact Hex.isSpelling_of_decode (eq_ok_of_mapError_eq_ok h)
  | bin => exact Encoding.code_of_encodeFrom_latin1 (eq_ok_of_mapError_eq_ok h)

/-- Octets are read from the text that they are spelled as. -/
theorem read_spell (encoding : BinaryEncoding) (bytes : Bytes) :
    encoding.read (encoding.spell bytes) = .ok bytes := by
  cases encoding with
  | hex =>
      rw [read, spell, Hex.decode_of_isSpelling (Hex.isSpelling_encode bytes), Hex.pairs_encode]
      rfl
  | bin =>
      rw [read, spell, Encoding.encode, Encoding.encodeFrom_latin1Chars]
      rfl

end BinaryEncoding

/-! ## Steps -/

namespace Document

/-- What can be done to a document.  Copying goes on with the copy. -/
inductive Step where
  | setMimeType (mimeType : Text)
  | setContent (content : Value) (encoding : BinaryEncoding)
  | setOctets (bytes : Bytes)
  | copyAsText

/-- A document after a change, and how the change ended.  One that fails leaves the document. -/
def after (d : Document) : Except Fault Document → Except Fault Unit × Document
  | .ok changed => (.ok (), changed)
  | .error fault => (.error fault, d)

/-- Take a step.  Only a binary document has octets to be set. -/
def take (d : Document) : Step → Except Fault Unit × Document
  | .setMimeType mimeType => (.ok (), d.setMimeType mimeType)
  | .setContent content encoding => d.after (d.setContent content encoding)
  | .setOctets bytes =>
    match d.content with
    | .binary _ => (.ok (), d.setOctets bytes)
    | .text _ => (.error (.access (.noAttribute "GenericTextDocumentContent" "set_bytes")), d)
  | .copyAsText => (.ok (), d.copyAsText)

/-- A binary document takes the octets that a text spells, and refuses any other text. -/
theorem setContent_binary (bytes : Bytes) (mimeType t : Text) (encoding : BinaryEncoding) :
    setContent ⟨.binary bytes, mimeType⟩ (.text t) encoding =
      match encoding.read t with
      | .ok spelled => .ok ⟨.binary spelled, mimeType⟩
      | .error fault => .error (.format fault) := by
  rw [setContent, spelledOctets]
  cases encoding.read t <;> rfl

/-- A text that spells octets in an encoding replaces the octets of a binary document, and in that
encoding the document then shows the text, with its digits in lower case.  Any other text is refused
for its form and changes nothing.  Octets that are set are set again by what is shown of them, and a
document is as long as its digits are many. -/
theorem take_setContent_binary (d : Document) (bytes : Bytes) (encoding : BinaryEncoding)
    (isBinary : d.content = .binary bytes) :
    (∀ t, encoding.Admits t →
      ∃ spelled, d.take (.setContent (.text t) encoding) = (.ok (), d.setOctets spelled) ∧
        (d.setOctets spelled).contentText encoding = encoding.shownAs t) ∧
    (∀ t, ¬ encoding.Admits t →
      ∃ fault, d.take (.setContent (.text t) encoding) = (.error (.format fault), d)) ∧
    (∀ given, ∃ changed, d.take (.setOctets given) = (.ok (), changed) ∧
      changed.content = .binary given ∧
      changed.take (.setContent (.text (changed.contentText encoding)) encoding) =
        (.ok (), changed)) ∧
    d.length = (d.contentText .hex).length := by
  obtain ⟨content, mimeType⟩ := d
  subst isBinary
  refine ⟨fun t admitted => ?_, fun t foreign => ?_, fun given => ?_, ?_⟩
  · obtain ⟨spelled, found, shown⟩ := BinaryEncoding.exists_read_of_admits admitted
    refine ⟨spelled, ?_, shown⟩
    rw [take, setContent_binary, found]
    rfl
  · cases found : encoding.read t with
    | ok spelled => exact absurd (BinaryEncoding.admits_of_read found) foreign
    | error fault =>
        refine ⟨fault, ?_⟩
        rw [take, setContent_binary, found]
        rfl
  · refine ⟨⟨.binary given, mimeType⟩, rfl, rfl, ?_⟩
    rw [take, contentText, setContent_binary, BinaryEncoding.read_spell]
    rfl
  · exact (Hex.length_encode bytes).symm.trans (Text.length_ofChars _).symm

/-- Digits in either case are taken, and half a pair of them is not. -/
theorem take_setContent_binary_digits :
    BinaryEncoding.hex.Admits "00fF" ∧ ¬ BinaryEncoding.hex.Admits "00f" ∧
    (∃ spelled, (make (.binary [1]) "image/png").take (.setContent (.text "00fF") .hex) =
        (.ok (), (make (.binary [1]) "image/png").setOctets spelled) ∧
      ((make (.binary [1]) "image/png").setOctets spelled).contentText .hex = "00ff") ∧
    ∃ fault, (make (.binary [1]) "image/png").take (.setContent (.text "00f") .hex) =
      (.error (.format fault), make (.binary [1]) "image/png") := by
  have laws := take_setContent_binary (make (.binary [1]) "image/png") [1] .hex rfl
  have pairs : BinaryEncoding.hex.Admits "00fF" := by decide
  have half : ¬ BinaryEncoding.hex.Admits "00f" := by decide
  exact ⟨pairs, half, laws.1 _ pairs, laws.2.1 _ half⟩

end Document

end DocumentGateway
