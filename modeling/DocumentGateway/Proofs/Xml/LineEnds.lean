import DocumentGateway.Proofs.Xml.WrittenElement

namespace DocumentGateway

/-!
# Line ends

A line ends with a carriage return, with a line feed or with both in a row.  When a document is read,
each of these becomes one line feed.  In an element this concerns the texts and the tails, and nothing
else.
-/

/-! ## Texts -/

/-- A text in which every line end is a line feed. -/
def Text.withLineFeeds : Text → Text
  | [] => []
  | .scalar '\r' :: .scalar '\n' :: rest => .scalar '\n' :: withLineFeeds rest
  | p :: rest => (if p = .scalar '\r' then .scalar '\n' else p) :: withLineFeeds rest

namespace Text

/-- No carriage return is left. -/
theorem return_not_mem_withLineFeeds (t : Text) : .scalar '\r' ∉ t.withLineFeeds := by
  fun_induction withLineFeeds t with
  | case1 => exact List.not_mem_nil
  | case2 rest ih =>
      rw [List.mem_cons, not_or]
      exact ⟨by decide, ih⟩
  | case3 p rest notBoth ih =>
      rw [List.mem_cons, not_or]
      refine ⟨?_, ih⟩
      split
      · decide
      · next different => exact fun same => different same.symm

/-- A text without carriage returns stays as it is. -/
theorem withLineFeeds_of_not_mem {t : Text} (h : .scalar '\r' ∉ t) : t.withLineFeeds = t := by
  fun_induction withLineFeeds t with
  | case1 => rfl
  | case2 rest ih => exact absurd List.mem_cons_self h
  | case3 p rest notBoth ih =>
      rw [List.mem_cons, not_or] at h
      rw [if_neg fun same => h.1 same.symm, ih h.2]

end Text

/-- The same value, with line feeds for the line ends of a text. -/
def Value.withLineFeeds : Value → Value
  | .text t => .text t.withLineFeeds
  | v => v

namespace Value

theorem return_not_mem_withLineFeeds (v : Value) : .scalar '\r' ∉ v.withLineFeeds.textOrEmpty := by
  cases v with
  | text t => exact t.return_not_mem_withLineFeeds
  | _ => exact List.not_mem_nil

theorem withLineFeeds_of_not_mem {v : Value} (h : .scalar '\r' ∉ v.textOrEmpty) :
    v.withLineFeeds = v := by
  cases v with
  | text t => exact congrArg Value.text (Text.withLineFeeds_of_not_mem h)
  | _ => rfl

end Value

namespace Xml

/-! ## Characters -/

/-- Characters in which every line end is a line feed. -/
def lineFeeds : List Char → List Char
  | [] => []
  | '\r' :: '\n' :: rest => '\n' :: lineFeeds rest
  | c :: rest => (if c = '\r' then '\n' else c) :: lineFeeds rest

theorem withLineFeeds_ofChars (t : List Char) :
    (Text.ofChars t).withLineFeeds = Text.ofChars (lineFeeds t) := by
  fun_induction lineFeeds t with
  | case1 => rfl
  | case2 rest ih =>
      rw [Text.ofChars_cons, Text.ofChars_cons, Text.withLineFeeds, ih, Text.ofChars_cons]
  | case3 c rest notBoth ih =>
      have notPair : ∀ more, CodePoint.scalar c = .scalar '\r' →
          Text.ofChars rest = .scalar '\n' :: more → False := by
        rintro more ⟨⟩ same
        cases rest with
        | nil => cases same
        | cons d others =>
            cases same
            exact notBoth others rfl rfl
      rw [Text.ofChars_cons, Text.withLineFeeds.eq_3 _ _ notPair, ih, Text.ofChars_cons]
      simp only [CodePoint.scalar.injEq]
      split
      · rfl
      · rfl

theorem areXmlChars_lineFeeds {t : List Char} (chars : AreXmlChars t) : AreXmlChars (lineFeeds t) := by
  fun_induction lineFeeds t with
  | case1 => exact .nil
  | case2 rest ih =>
      exact .cons (by decide) (ih chars.tail.tail)
  | case3 c rest notBoth ih =>
      refine .cons ?_ (ih chars.tail)
      split
      · decide
      · exact chars c List.mem_cons_self

theorem lineFeeds_append {front : List Char} (h : '\r' ∉ front) (back : List Char) :
    lineFeeds (front ++ back) = front ++ lineFeeds back := by
  induction front with
  | nil => rfl
  | cons c rest ih =>
      rw [List.mem_cons, not_or] at h
      have different : c ≠ '\r' := fun same => h.1 same.symm
      rw [List.cons_append, lineFeeds, if_neg different, ih h.2, List.cons_append]
      exact fun _ same _ => different same

/-- No text becomes empty. -/
theorem withLineFeeds_textValue (t : List Char) :
    (textValue t).withLineFeeds = textValue (lineFeeds t) := by
  cases t with
  | nil => rfl
  | cons c rest =>
      have filled : ∃ d more, lineFeeds (c :: rest) = d :: more := by
        unfold lineFeeds
        split
        · next same => cases same
        · exact ⟨_, _, rfl⟩
        · exact ⟨_, _, rfl⟩
      rcases filled with ⟨d, more, cons⟩
      have text := congrArg Value.text (withLineFeeds_ofChars (c :: rest))
      rw [cons] at text ⊢
      exact text

theorem isReadText_withLineFeeds {v : Value} (h : IsReadText v) : IsReadText v.withLineFeeds := by
  rcases h with ⟨t, chars, rfl⟩
  rw [withLineFeeds_textValue]
  exact isReadText_textValue (areXmlChars_lineFeeds chars)

/-! ## Elements -/

namespace Element

mutual

/-- An element with line feeds for all line ends of its texts and tails. -/
def withLineFeeds : Element → Element
  | node tag attributes text tail children =>
    node tag attributes text.withLineFeeds tail.withLineFeeds (withLineFeedsAll children)
  | comment content tail => comment content tail.withLineFeeds
  | instruction content tail => instruction content tail.withLineFeeds

def withLineFeedsAll : List Element → List Element
  | [] => []
  | child :: rest => child.withLineFeeds :: withLineFeedsAll rest

end

theorem withLineFeedsAll_eq_map (children : List Element) :
    withLineFeedsAll children = children.map withLineFeeds := by
  induction children with
  | nil => rfl
  | cons child rest ih => rw [withLineFeedsAll, ih, List.map_cons]

/-- The text inside of a node and the one behind it. -/
def slots : Element → List Value
  | node _ _ text tail _ => [text, tail]
  | comment _ tail => [tail]
  | instruction _ tail => [tail]

/-- All texts and tails in an element, its own tail included. -/
def allSlots (e : Element) : List Value :=
  e.descendants.flatMap slots

theorem allSlots_node (tag : List Char) (attributes : OrderedPairs (List Char) (List Char))
    (text tail : Value) (children : List Element) :
    (node tag attributes text tail children).allSlots =
      text :: tail :: children.flatMap allSlots :=
  flatMap_descendants_node slots tag attributes text tail children

theorem forall_mem_allSlots_node {tag : List Char}
    {attributes : OrderedPairs (List Char) (List Char)} {text tail : Value}
    {children : List Element} {holds : Value → Prop} :
    (∀ v ∈ (node tag attributes text tail children).allSlots, holds v) ↔
      holds text ∧ holds tail ∧ ∀ child ∈ children, ∀ v ∈ child.allSlots, holds v := by
  rw [allSlots_node, List.forall_mem_cons, List.forall_mem_cons, List.forall_mem_flatMap]

mutual

theorem isReadText_of_mem_allSlots {e : Element} (read : e.IsRead) :
    ∀ v ∈ e.allSlots, IsReadText v := by
  cases e with
  | node tag attributes text tail children =>
      rw [IsRead] at read
      rw [forall_mem_allSlots_node]
      exact ⟨read.2.2.1, read.2.2.2.1, isReadText_of_areRead read.2.2.2.2⟩
  | comment content tail => exact False.elim read
  | instruction content tail => exact False.elim read

theorem isReadText_of_areRead {children : List Element} (read : AreRead children) :
    ∀ child ∈ children, ∀ v ∈ child.allSlots, IsReadText v := by
  cases children with
  | nil => exact fun child member => absurd member List.not_mem_nil
  | cons child rest =>
      rw [AreRead] at read
      rw [List.forall_mem_cons]
      exact ⟨isReadText_of_mem_allSlots read.1, isReadText_of_areRead read.2⟩

end

mutual

/-- No carriage return is left in any text. -/
theorem return_not_mem_withLineFeeds (e : Element) :
    ∀ v ∈ e.withLineFeeds.allSlots, .scalar '\r' ∉ v.textOrEmpty := by
  cases e with
  | node tag attributes text tail children =>
      rw [withLineFeeds, forall_mem_allSlots_node]
      refine ⟨text.return_not_mem_withLineFeeds, tail.return_not_mem_withLineFeeds, ?_⟩
      exact return_not_mem_withLineFeedsAll children
  | comment content tail => exact List.forall_mem_singleton.mpr tail.return_not_mem_withLineFeeds
  | instruction content tail => exact List.forall_mem_singleton.mpr tail.return_not_mem_withLineFeeds

theorem return_not_mem_withLineFeedsAll (children : List Element) :
    ∀ child ∈ withLineFeedsAll children, ∀ v ∈ child.allSlots, .scalar '\r' ∉ v.textOrEmpty := by
  cases children with
  | nil => exact fun child member => absurd member List.not_mem_nil
  | cons child rest =>
      rw [withLineFeedsAll, List.forall_mem_cons]
      exact ⟨return_not_mem_withLineFeeds child, return_not_mem_withLineFeedsAll rest⟩

end

mutual

/-- An element without carriage returns stays as it is. -/
theorem withLineFeeds_of_not_mem (e : Element)
    (h : ∀ v ∈ e.allSlots, .scalar '\r' ∉ v.textOrEmpty) : e.withLineFeeds = e := by
  cases e with
  | node tag attributes text tail children =>
      rw [forall_mem_allSlots_node] at h
      rw [withLineFeeds, Value.withLineFeeds_of_not_mem h.1,
        Value.withLineFeeds_of_not_mem h.2.1, withLineFeedsAll_of_not_mem children h.2.2]
  | comment content tail =>
      rw [withLineFeeds, Value.withLineFeeds_of_not_mem (h tail List.mem_cons_self)]
  | instruction content tail =>
      rw [withLineFeeds, Value.withLineFeeds_of_not_mem (h tail List.mem_cons_self)]

theorem withLineFeedsAll_of_not_mem (children : List Element)
    (h : ∀ child ∈ children, ∀ v ∈ child.allSlots, .scalar '\r' ∉ v.textOrEmpty) :
    withLineFeedsAll children = children := by
  cases children with
  | nil => rfl
  | cons child rest =>
      rw [List.forall_mem_cons] at h
      rw [withLineFeedsAll, withLineFeeds_of_not_mem child h.1, withLineFeedsAll_of_not_mem rest h.2]

end

/-- Nothing more is changed a second time. -/
theorem withLineFeeds_withLineFeeds (e : Element) :
    e.withLineFeeds.withLineFeeds = e.withLineFeeds :=
  e.withLineFeeds.withLineFeeds_of_not_mem e.return_not_mem_withLineFeeds

mutual

theorem allNames_withLineFeeds (e : Element) : e.withLineFeeds.allNames = e.allNames := by
  cases e with
  | node tag attributes text tail children =>
      rw [withLineFeeds, allNames_node, allNames_node, flatMap_allNames_withLineFeedsAll children]
  | comment content tail => rfl
  | instruction content tail => rfl

theorem flatMap_allNames_withLineFeedsAll (children : List Element) :
    (withLineFeedsAll children).flatMap allNames = children.flatMap allNames := by
  cases children with
  | nil => rfl
  | cons child rest =>
      rw [withLineFeedsAll, List.flatMap_cons, List.flatMap_cons, allNames_withLineFeeds child,
        flatMap_allNames_withLineFeedsAll rest]

end

mutual

theorem depth_withLineFeeds (e : Element) : e.withLineFeeds.depth = e.depth := by
  cases e with
  | node tag attributes text tail children =>
      rw [withLineFeeds, depth, depth, depthOfAll_withLineFeedsAll children]
  | comment content tail => rfl
  | instruction content tail => rfl

theorem depthOfAll_withLineFeedsAll (children : List Element) :
    depthOfAll (withLineFeedsAll children) = depthOfAll children := by
  cases children with
  | nil => rfl
  | cons child rest =>
      rw [withLineFeedsAll, depthOfAll, depthOfAll, depth_withLineFeeds child,
        depthOfAll_withLineFeedsAll rest]

end

mutual

theorem isRead_withLineFeeds {e : Element} (h : e.IsRead) : e.withLineFeeds.IsRead := by
  cases e with
  | node tag attributes text tail children =>
      rw [Element.IsRead] at h
      rcases h with ⟨hTag, hAttributes, hText, hTail, hChildren⟩
      rw [withLineFeeds, Element.IsRead]
      exact ⟨hTag, hAttributes, isReadText_withLineFeeds hText, isReadText_withLineFeeds hTail,
        areRead_withLineFeedsAll hChildren⟩
  | comment content tail => exact False.elim h
  | instruction content tail => exact False.elim h

theorem areRead_withLineFeedsAll {children : List Element} (h : AreRead children) :
    AreRead (withLineFeedsAll children) := by
  cases children with
  | nil => trivial
  | cons child rest =>
      rw [AreRead] at h
      rw [withLineFeedsAll, AreRead]
      exact ⟨isRead_withLineFeeds h.1, areRead_withLineFeedsAll h.2⟩

end

/-- What stands alone does so with line feeds as well. -/
theorem IsReadAlone.withLineFeeds {e : Element} (h : e.IsReadAlone) :
    e.withLineFeeds.IsReadAlone where
  read := isRead_withLineFeeds h.read
  alone := by
    rw [← h.alone]
    cases e with
    | node tag attributes text tail children => rfl
    | comment content tail => rfl
    | instruction content tail => rfl

end Element

end Xml
end DocumentGateway
