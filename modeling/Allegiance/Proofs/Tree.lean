import Allegiance.Proofs.Spelling

namespace Allegiance.Json

open Document (Node Reader Misread)

namespace State

/-- The first item of a list is taken as any value is. -/
theorem foldl_first (d : Doc) (items : List Node) (stack : Stack) :
    d.tokens.foldl step (.first (.list items) stack) =
      d.tokens.foldl step (.value (.list items :: stack)) := by
  rcases d with _ | b | l | s | (_ | ⟨item, rest⟩) | (_ | ⟨⟨name, value⟩, rest⟩)
  all_goals
    rw [Doc.tokens]
    rfl

mutual

/-- The tokens of a document put its tree where a value is due. -/
theorem foldl_tokens : ∀ (d : Doc) (stack : Stack),
    d.tokens.foldl step (.value stack) = put d.node stack
  | .null, stack => rfl
  | .bool b, stack => rfl
  | .number l, stack => rfl
  | .text s, stack => rfl
  | .list [], stack => rfl
  | .list (item :: items), stack => by
    have hfirst := foldl_tokens item (.list [] :: stack)
    have hmore := foldl_moreItems items [item.node] stack
    have hopen : step (.value stack) .openList = .first (.list []) stack := rfl
    rw [Doc.tokens, List.foldl_cons, hopen, List.foldl_append, List.foldl_append,
      foldl_first, hfirst, put, hmore]
    simp [step, Doc.node, Doc.itemNodes]
  | .map [], stack => rfl
  | .map ((name, d) :: members), stack => by
    have hfirst := foldl_tokens d (.entry [] (.text name) :: stack)
    have hmore := foldl_moreMembers members [(.text name, d.node)] stack
    rw [Doc.tokens]
    change (d.tokens ++ Doc.moreMembers members ++ [Token.closeMap]).foldl step
      (.value (.entry [] (.text name) :: stack)) = _
    rw [List.foldl_append, List.foldl_append, hfirst, put, hmore]
    simp [step, Doc.node, Doc.memberNodes]

theorem foldl_moreItems : ∀ (items : List Doc) (seen : List Node) (stack : Stack),
    (Doc.moreItems items).foldl step (.next (.list seen) stack) =
      .next (.list ((Doc.itemNodes items).reverse ++ seen)) stack
  | [], seen, stack => rfl
  | item :: items, seen, stack => by
    have hfirst := foldl_tokens item (.list seen :: stack)
    have hmore := foldl_moreItems items (item.node :: seen) stack
    have hcomma : step (.next (.list seen) stack) .comma = .value (.list seen :: stack) := rfl
    rw [Doc.moreItems, List.foldl_cons, hcomma, List.foldl_append, hfirst, put, hmore]
    simp [Doc.itemNodes]

theorem foldl_moreMembers : ∀ (members : List (String × Doc)) (seen : List (Node × Node))
    (stack : Stack), (Doc.moreMembers members).foldl step (.next (.map seen) stack) =
      .next (.map ((Doc.memberNodes members).reverse ++ seen)) stack
  | [], seen, stack => rfl
  | (name, d) :: members, seen, stack => by
    have hfirst := foldl_tokens d (.entry seen (.text name) :: stack)
    have hmore := foldl_moreMembers members ((.text name, d.node) :: seen) stack
    rw [Doc.moreMembers]
    change (d.tokens ++ Doc.moreMembers members).foldl step
      (.value (.entry seen (.text name) :: stack)) = _
    rw [List.foldl_append, hfirst, put, hmore]
    simp [Doc.memberNodes]

end

end State

theorem document_of_spelled {d : Doc} {b : Bytes} (h : d.IsSpelledBy b) :
    document b = (d.node, false) := by
  obtain ⟨x, w, hx, hw, rfl⟩ := h
  have hend : Token.ofBytes w = [] := by
    have := Token.ofBytes_blanks hw []
    rwa [List.append_nil, Token.ofBytes_nil] at this
  have htokens : Token.ofBytes (x ++ w) = d.tokens := by
    have := Token.ofBytes_spaced hx (fun _ hbare => Token.ofBytes_spelled d hbare
      (List.append_nil w ▸ hw.endsNumber endsNumber_nil))
    rwa [hend, List.append_nil] at this
  rw [document, htokens, State.foldl_tokens]
  rfl

/-- What spells a document is read as the tree of the document, and as nothing but it. -/
theorem read_of_spelled {α : Type} {d : Doc} {b : Bytes} (h : d.IsSpelledBy b)
    (reader : Reader α) : read reader b = reader d.node := by
  rw [read, document_of_spelled h]
  cases reader d.node with
  | error e => rfl
  | ok x => rfl

end Allegiance.Json
