import DocumentGateway.Proofs.Json.WrittenValue
import DocumentGateway.Proofs.Response.ErrorGate

namespace DocumentGateway

/-!
# What an error says

An envelope that came as JSON is written as JSON again: the whole of it indented, and a message that
is no text on one line of ASCII.  What was read can be written unless a record in it hides a field
`items`, and what is written is read as the same value.  Only two halves of a surrogate pair that
the body left apart are joined on their way through ASCII.
-/

/-- A value that was read can be written unless a record in it has a field `items`, and what is
written is read as the value again if the layout keeps the texts in it and there is room for it. -/
theorem Json.IsReading.exists_write_eq_ok [Limits] {v : Value} (reading : IsReading v)
    (shows : v.hidesItems = false) (l : Layout) :
    ∃ t, write l v = .ok t ∧
      ((∀ s ∈ v.texts, l.Keeps s) → v.depth ≤ Limits.commonValues → (parse t).result = .ok v) := by
  rcases Json.exists_write_eq_ok reading.plain shows l with ⟨t, written⟩
  refine ⟨t, written, fun keeps fits => result_parse_eq_ok_iff.mpr ?_⟩
  have back := read_write keeps reading.plain fits written
  rw [reading.same] at back
  exact back

/-- A value without a surrogate pair that is left in two halves, in its texts and in its names. -/
def Value.IsJoined (v : Value) : Prop :=
  ∀ s ∈ v.texts, Json.IsJoined s

namespace ErrorEnvelope

/-- A body with an object under `errorResponse` carries it as its envelope. -/
theorem result_find_json [Limits] {r : Response} {t : Text} {fields envelope : Record}
    (isText : r.text = .ok t) (notXml : r.type ≠ .xml) (isObject : Json.read t = .ok (.record fields))
    (under : fields.get? "errorResponse" = some (.record envelope)) :
    (find r).result = .ok (some (.json envelope)) := by
  have result := result_read_json isText notXml
  rw [Json.result_parse_eq_ok_iff.mpr isObject] at result
  rw [result_find, result]
  exact congrArg Except.ok (ofValue?_record under)

theorem message_json_of_get?_eq_none {envelope : Record} (none : envelope.get? "message" = none) :
    (json envelope).message.result = .ok [] := by
  rw [message, none]
  rfl

theorem message_json_of_text {envelope : Record} {t : Text}
    (has : envelope.get? "message" = some (.text t)) : (json envelope).message.result = .ok t := by
  rw [message, has]
  rfl

theorem message_json_of_ne_text {envelope : Record} {v : Value}
    (has : envelope.get? "message" = some v) (noText : ∀ t, v ≠ .text t) :
    (json envelope).message.result = (Json.write .compactAscii v).mapError .serialization := by
  rw [message, has]
  cases v with
  | text t => exact absurd rfl (noText t)
  | _ => rfl

end ErrorEnvelope

namespace Response

/-- An error that comes as JSON can be read out unless a field is called `items`.  The detail is then
a text that is read as the whole envelope, if there is room for that.  The message is the text under
`message`, or empty when nothing is there; and a message that is no text is written as one that is read
as the message, if there is room and as long as no surrogate pair in it is left in two halves. -/
theorem errorDetail_and_errorMessage [Limits] {r : Response} {t : Text} {fields envelope : Record}
    (isText : r.text = .ok t) (notXml : r.type ≠ .xml) (isObject : Json.read t = .ok (.record fields))
    (under : fields.get? "errorResponse" = some (.record envelope)) :
    ((Value.record envelope).hidesItems = true →
      ∃ kind, r.errorDetail.result = .error (.serialization (.hiddenItems kind))) ∧
    ((Value.record envelope).hidesItems = false →
      ∃ detail, r.errorDetail.result = .ok detail ∧
        ((Value.record envelope).depth ≤ Limits.commonValues →
          (Json.parse detail).result = .ok (.record envelope))) ∧
    (envelope.get? "message" = none → r.errorMessage.result = .ok []) ∧
    (∀ message, envelope.get? "message" = some (.text message) →
      r.errorMessage.result = .ok message) ∧
    ∀ v, envelope.get? "message" = some v → (∀ message, v ≠ .text message) →
      (v.hidesItems = true →
        ∃ kind, r.errorMessage.result = .error (.serialization (.hiddenItems kind))) ∧
      (v.hidesItems = false →
        ∃ message, r.errorMessage.result = .ok message ∧
          (v.IsJoined → v.depth ≤ Limits.commonValues → (Json.parse message).result = .ok v)) := by
  have isFound := ErrorEnvelope.result_find_json isText notXml isObject under
  have reading := (Json.isReading_read isObject).of_get? under
  have detailIs : r.errorDetail.result =
      (Json.write .pretty (.record envelope)).mapError .serialization :=
    result_errorDetail isFound
  have messageIs : r.errorMessage.result = (ErrorEnvelope.json envelope).message.result :=
    result_errorMessage isFound
  rw [detailIs, messageIs]
  refine ⟨fun hides => ?_, fun shows => ?_, ErrorEnvelope.message_json_of_get?_eq_none,
    fun _ => ErrorEnvelope.message_json_of_text, fun v has noText => ?_⟩
  · rcases Json.exists_write_eq_error reading.plain hides .pretty with ⟨kind, failed⟩
    exact ⟨kind, by rw [failed]; rfl⟩
  · rcases reading.exists_write_eq_ok shows .pretty with ⟨detail, written, back⟩
    refine ⟨detail, by rw [written]; rfl, back fun s _ => ?_⟩
    exact Json.Layout.keeps_of_ascii_eq_false rfl s
  · rw [ErrorEnvelope.message_json_of_ne_text has noText]
    have readingMessage := reading.of_get? has
    refine ⟨fun hides => ?_, fun shows => ?_⟩
    · rcases Json.exists_write_eq_error readingMessage.plain hides .compactAscii with ⟨kind, failed⟩
      exact ⟨kind, by rw [failed]; rfl⟩
    · rcases readingMessage.exists_write_eq_ok shows .compactAscii with ⟨message, written, back⟩
      exact ⟨message, by rw [written]; rfl, fun joined => back fun s member _ => joined s member⟩

/-- A body whose envelope has one field. -/
def bodyWith (name : Text) (v : Value) : Value :=
  .record [(.text "errorResponse", .record [(.text name, v)])]

section

open scoped Limits

/-- A body with a message that is no text. -/
def listMessage : Text :=
  Text.ofChars [
    '\x7b', '"', 'e', 'r', 'r', 'o', 'r', 'R', 'e', 's', 'p', 'o', 'n', 's', 'e', '"', ':',
    '\x7b', '"', 'm', 'e', 's', 's', 'a', 'g', 'e', '"', ':', '[', 'n', 'u', 'l', 'l', ']',
    '\x7d', '\x7d']

theorem read_listMessage : Json.read listMessage = .ok (bodyWith "message" (.list [.null])) := by
  have scanned : Json.scanValue (Limits.values listMessage) 74 listMessage =
      .ok (bodyWith "message" (.list [.null]), []) := rfl
  exact Json.read_of_scanValue rfl rfl (by decide) scanned

/-- The detail and the message of an envelope with a list as its message. -/
theorem errorDetail_and_errorMessage_listMessage :
    (∃ detail, (blank.setBody (.text listMessage)).errorDetail.result = .ok detail ∧
      (Json.parse detail).result = .ok (.record [(.text "message", .list [.null])])) ∧
    ∃ message, (blank.setBody (.text listMessage)).errorMessage.result = .ok message ∧
      (Json.parse message).result = .ok (.list [.null]) := by
  have readout := errorDetail_and_errorMessage (r := blank.setBody (.text listMessage)) rfl
    (by decide) read_listMessage rfl
  rcases readout with ⟨-, detail, -, -, message⟩
  rcases detail rfl with ⟨envelope, written, isRead⟩
  rcases (message (.list [.null]) rfl (by simp)).2 rfl with ⟨content, writtenToo, isReadToo⟩
  refine ⟨⟨envelope, written, isRead (by decide)⟩, content, writtenToo, isReadToo ?_ (by decide)⟩
  exact fun s member => absurd member List.not_mem_nil

/-- A body with an envelope that has a field `items`. -/
def hiddenItems : Text :=
  Text.ofChars [
    '\x7b', '"', 'e', 'r', 'r', 'o', 'r', 'R', 'e', 's', 'p', 'o', 'n', 's', 'e', '"', ':',
    '\x7b', '"', 'i', 't', 'e', 'm', 's', '"', ':', '[', '1', ']', '\x7d', '\x7d']

theorem read_hiddenItems : Json.read hiddenItems = .ok (bodyWith "items" (.list [.int 1])) := by
  have scanned : Json.scanValue (Limits.values hiddenItems) 64 hiddenItems =
      .ok (bodyWith "items" (.list [.int 1]), []) := rfl
  exact Json.read_of_scanValue rfl rfl (by decide) scanned

/-- The second half of a surrogate pair. -/
def secondHalf : CodePoint :=
  .surrogate ⟨0x600, by decide⟩

/-- Both halves of a surrogate pair. -/
def halves : Text :=
  [.surrogate ⟨0x3d, by decide⟩, secondHalf]

/-- A body with a message in which the halves of a pair stand apart: the first is spelled by its
number, and the second stands as it is. -/
def halvedMessage : Text :=
  Text.ofChars [
    '\x7b', '"', 'e', 'r', 'r', 'o', 'r', 'R', 'e', 's', 'p', 'o', 'n', 's', 'e', '"', ':',
    '\x7b', '"', 'm', 'e', 's', 's', 'a', 'g', 'e', '"', ':', '[', '"', '\\', 'u', 'd', '8', '3',
    'd'] ++
    secondHalf :: Text.ofChars ['"', ']', '\x7d', '\x7d']

theorem read_halvedMessage :
    Json.read halvedMessage = .ok (bodyWith "message" (.list [.text halves])) := by
  have scanned : Json.scanValue (Limits.values halvedMessage) 84 halvedMessage =
      .ok (bodyWith "message" (.list [.text halves]), []) := rfl
  exact Json.read_of_scanValue rfl rfl (by decide) scanned

/-- The message as it is written. -/
def joinedMessage : Text :=
  Text.ofChars [
    '[', '"', '\\', 'u', 'd', '8', '3', 'd', '\\', 'u', 'd', 'e', '0', '0', '"', ']']

theorem read_joinedMessage : Json.read joinedMessage = .ok (.list [.text [.scalar '😀']]) := by
  have scanned : Json.scanValue (Limits.values joinedMessage) 34 joinedMessage =
      .ok (.list [.text [.scalar '😀']], []) := rfl
  exact Json.read_of_scanValue rfl rfl (by decide) scanned

/-- An envelope with a field `items` has no detail, and in a message that is no text the halves of a
pair become the pair. -/
theorem not_errorDetail_and_errorMessage :
    (Json.read hiddenItems = .ok (bodyWith "items" (.list [.int 1])) ∧
      ∃ fault, (blank.setBody (.text hiddenItems)).errorDetail.result = .error fault) ∧
    (Json.read halvedMessage = .ok (bodyWith "message" (.list [.text halves])) ∧
      ∃ message, (blank.setBody (.text halvedMessage)).errorMessage.result = .ok message ∧
        (Json.parse message).result = .ok (.list [.text [.scalar '😀']])) := by
  refine ⟨⟨read_hiddenItems, ?_⟩, read_halvedMessage, ?_⟩
  · have isFound := ErrorEnvelope.result_find_json (r := blank.setBody (.text hiddenItems)) rfl
      (by decide) read_hiddenItems rfl
    exact ⟨_, result_errorDetail isFound⟩
  · have isFound := ErrorEnvelope.result_find_json (r := blank.setBody (.text halvedMessage)) rfl
      (by decide) read_halvedMessage rfl
    have written : Json.write .compactAscii (.list [.text halves]) = .ok joinedMessage := rfl
    have message : (blank.setBody (.text halvedMessage)).errorMessage.result = .ok joinedMessage := by
      rw [result_errorMessage isFound, Option.elim_some,
        ErrorEnvelope.message_json_of_ne_text (v := .list [.text halves]) rfl (by simp), written]
      rfl
    exact ⟨_, message, Json.result_parse_eq_ok_iff.mpr read_joinedMessage⟩

end

end Response

end DocumentGateway
