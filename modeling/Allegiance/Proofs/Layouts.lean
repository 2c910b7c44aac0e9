import Allegiance.Proofs.EscapedText
import Allegiance.Proofs.Tree
import Allegiance.Proofs.WholeNumber

namespace Allegiance.Json

open Document (Node Reader Misread)

namespace Value

mutual

/-- Whether all numbers of a value are whole and not negative, and fit 64 bits. -/
def Whole : Value → Prop
  | integer i => 0 ≤ i ∧ i < UInt64.size
  | real _ => False
  | text _ => True
  | list items => WholeItems items
  | object members => WholeMembers members

def WholeItems : List Value → Prop
  | [] => True
  | item :: rest => item.Whole ∧ WholeItems rest

def WholeMembers : List (String × Value) → Prop
  | [] => True
  | (_, value) :: rest => value.Whole ∧ WholeMembers rest

end

theorem wholeItems_iff {items : List Value} : WholeItems items ↔ ∀ v ∈ items, v.Whole := by
  induction items with
  | nil => simp [WholeItems]
  | cons item rest ih => simp [WholeItems, ih]

theorem wholeMembers_iff {members : List (String × Value)} :
    WholeMembers members ↔ ∀ m ∈ members, m.2.Whole := by
  induction members with
  | nil => simp [WholeMembers]
  | cons m rest ih => simp [WholeMembers, ih]

theorem whole_record {members : List (String × Option Value)}
    (h : ∀ m ∈ members, ∀ v ∈ m.2, v.Whole) : (record members).Whole := by
  apply wholeMembers_iff.mpr
  intro m hm
  obtain ⟨⟨name, value⟩, hmember, hkept⟩ := List.mem_filterMap.mp hm
  obtain ⟨v, hv, rfl⟩ := Option.map_eq_some_iff.mp hkept
  exact h _ hmember v hv

mutual

def node : Value → Node
  | integer i => .integer i
  | real x => .real x
  | text s => .text s
  | list items => .list (itemNodes items) none
  | object members => .map (memberNodes members) none

def itemNodes : List Value → List Node
  | [] => []
  | item :: rest => item.node :: itemNodes rest

def memberNodes : List (String × Value) → List (Node × Node)
  | [] => []
  | (name, value) :: rest => (.text name, value.node) :: memberNodes rest

end

theorem memberNodes_eq_map (members : List (String × Value)) :
    memberNodes members = members.map (fun m => (.text m.1, m.2.node)) := by
  induction members with
  | nil => rfl
  | cons m members ih => rw [memberNodes, ih, List.map_cons]

mutual

/-- The document that a value is written as. No number but a whole one is written. -/
def doc : Value → Doc
  | integer i => .number (.ofNat i.toNat)
  | real _ => .null
  | text s => .text s
  | list items => .list (itemDocs items)
  | object members => .map (memberDocs members)

def itemDocs : List Value → List Doc
  | [] => []
  | item :: rest => item.doc :: itemDocs rest

def memberDocs : List (String × Value) → List (String × Doc)
  | [] => []
  | (name, value) :: rest => (name, value.doc) :: memberDocs rest

end

theorem integerText_eq {i : Int} (h : (integer i).Whole) :
    bytes (integerText i) = decimal i.toNat := by
  simp only [integerText, decimal]
  rw [if_neg (by have := h.1; omega)]

mutual

theorem node_doc : ∀ v : Value, v.Whole → v.doc.node = v.node
  | integer i, h => by
    obtain ⟨hi, hlt⟩ := h
    rw [doc, Doc.node, Literal.node_ofNat (by omega), node, Int.toNat_of_nonneg hi]
  | real x, h => absurd h id
  | text s, h => rfl
  | list items, h => by rw [doc, Doc.node, node, itemNodes_docs items h]
  | object members, h => by rw [doc, Doc.node, node, memberNodes_docs members h]

theorem itemNodes_docs : ∀ items, WholeItems items → Doc.itemNodes (itemDocs items) = itemNodes items
  | [], h => rfl
  | item :: items, h => by
    rw [itemDocs, Doc.itemNodes, itemNodes, node_doc item h.1, itemNodes_docs items h.2]

theorem memberNodes_docs : ∀ members, WholeMembers members →
    Doc.memberNodes (memberDocs members) = memberNodes members
  | [], h => rfl
  | (name, value) :: members, h => by
    rw [memberDocs, Doc.memberNodes, memberNodes, node_doc value h.1, memberNodes_docs members h.2]

end

/-- The items after the first one as they stand in a compact list. -/
def compactMoreItems (items : List Value) : Bytes := items.flatMap (fun v => byte ',' :: v.compact)

def compactMoreMembers (members : List (String × Value)) : Bytes :=
  members.flatMap (fun m => byte ',' :: (writeText m.1 ++ byte ':' :: m.2.compact))

theorem compactItems_cons (item : Value) (items : List Value) :
    compactItems (item :: items) = item.compact ++ compactMoreItems items := by
  induction items generalizing item with
  | nil => simp [compactItems, compactMoreItems]
  | cons next items ih =>
    rw [compactItems, ih next]
    · simp [compactMoreItems]
    · simp

theorem compactMembers_cons (name : String) (value : Value) (members : List (String × Value)) :
    compactMembers ((name, value) :: members) =
      writeText name ++ byte ':' :: (value.compact ++ compactMoreMembers members) := by
  induction members generalizing name value with
  | nil => simp [compactMembers, compactMoreMembers]
  | cons next members ih =>
    rw [compactMembers, ih next.1 next.2]
    · simp [compactMoreMembers]
    · simp

theorem spaced_bare {spells : Bytes → Prop} {b : Bytes} (h : spells b) : Spaced spells b :=
  ⟨[], b, by simp [AreBlanks], h, rfl⟩

theorem spaced_name (name : String) : Spaced (SpellsText name) (writeText name) :=
  spaced_bare (spellsText_writeText name)

theorem areBlanks_nil : AreBlanks [] := by simp [AreBlanks]

mutual

theorem spells_compact : ∀ v : Value, v.Whole → v.doc.Spells v.compact
  | integer i, h => by
    rw [doc, Doc.Spells, compact, integerText_eq h]
    exact Literal.spells_decimal i.toNat
  | real x, h => absurd h id
  | text s, h => by
    rw [doc, Doc.Spells, compact]
    exact spellsText_writeText s
  | list [], h => by
    rw [doc, itemDocs, Doc.Spells]
    exact ⟨[], areBlanks_nil, rfl⟩
  | list (item :: items), h => by
    rw [doc, itemDocs, Doc.Spells]
    exact ⟨item.compact, compactMoreItems items, [], spaced_bare (spells_compact item h.1),
      spells_compactMoreItems items h.2, areBlanks_nil, by simp [compact, compactItems_cons]⟩
  | object [], h => by
    rw [doc, memberDocs, Doc.Spells]
    exact ⟨[], areBlanks_nil, rfl⟩
  | object ((name, value) :: members), h => by
    rw [doc, memberDocs, Doc.Spells]
    exact ⟨writeText name, [], value.compact, compactMoreMembers members, [], spaced_name name,
      areBlanks_nil, spaced_bare (spells_compact value h.1), spells_compactMoreMembers members h.2,
      areBlanks_nil, by simp [compact, compactMembers_cons]⟩

theorem spells_compactMoreItems : ∀ items, WholeItems items →
    Doc.SpellsMoreItems (itemDocs items) (compactMoreItems items)
  | [], h => by rw [itemDocs, Doc.SpellsMoreItems, compactMoreItems, List.flatMap_nil]
  | item :: items, h => by
    rw [itemDocs, Doc.SpellsMoreItems]
    exact ⟨[], item.compact, compactMoreItems items, areBlanks_nil,
      spaced_bare (spells_compact item h.1), spells_compactMoreItems items h.2,
      by simp [compactMoreItems]⟩

theorem spells_compactMoreMembers : ∀ members, WholeMembers members →
    Doc.SpellsMoreMembers (memberDocs members) (compactMoreMembers members)
  | [], h => by rw [memberDocs, Doc.SpellsMoreMembers, compactMoreMembers, List.flatMap_nil]
  | (name, value) :: members, h => by
    rw [memberDocs, Doc.SpellsMoreMembers]
    exact ⟨[], writeText name, [], value.compact, compactMoreMembers members, areBlanks_nil,
      spaced_name name, areBlanks_nil, spaced_bare (spells_compact value h.1),
      spells_compactMoreMembers members h.2, by simp [compactMoreMembers]⟩

end

theorem areBlanks_newLine (level : Nat) : AreBlanks (newLine level) := by
  intro c hc
  simp only [newLine, List.mem_cons, List.mem_replicate] at hc
  rcases hc with rfl | ⟨_, rfl⟩ <;> decide

theorem spaced_newLine {spells : Bytes → Prop} {b : Bytes} (level : Nat) (h : spells b) :
    Spaced spells (newLine level ++ b) :=
  ⟨newLine level, b, areBlanks_newLine level, h, rfl⟩

theorem spaced_blank {spells : Bytes → Prop} {b : Bytes} (h : spells b) :
    Spaced spells (byte ' ' :: b) :=
  ⟨[byte ' '], b, by simp [AreBlanks]; decide, h, rfl⟩

mutual

theorem spells_pretty : ∀ (level : Nat) (v : Value), v.Whole → v.doc.Spells (v.pretty level)
  | level, integer i, h => by
    rw [doc, Doc.Spells, pretty, integerText_eq h]
    exact Literal.spells_decimal i.toNat
  | level, real x, h => absurd h id
  | level, text s, h => by
    rw [doc, Doc.Spells, pretty]
    exact spellsText_writeText s
  | level, list [], h => by
    rw [doc, itemDocs, Doc.Spells]
    exact ⟨[], areBlanks_nil, rfl⟩
  | level, list (item :: items), h => by
    rw [doc, itemDocs, Doc.Spells]
    exact ⟨newLine (level + 1) ++ item.pretty (level + 1), prettyItems level items, newLine level,
      spaced_newLine _ (spells_pretty (level + 1) item h.1), spells_prettyItems level items h.2,
      areBlanks_newLine level, by simp [pretty]⟩
  | level, object [], h => by
    rw [doc, memberDocs, Doc.Spells]
    exact ⟨[], areBlanks_nil, rfl⟩
  | level, object ((name, value) :: members), h => by
    rw [doc, memberDocs, Doc.Spells]
    exact ⟨newLine (level + 1) ++ writeText name, [], byte ' ' :: value.pretty (level + 1),
      prettyMembers level members, newLine level, spaced_newLine _ (spellsText_writeText name),
      areBlanks_nil, spaced_blank (spells_pretty (level + 1) value h.1),
      spells_prettyMembers level members h.2, areBlanks_newLine level, by simp [pretty, bytes]⟩

theorem spells_prettyItems : ∀ (level : Nat) (items : List Value), WholeItems items →
    Doc.SpellsMoreItems (itemDocs items) (prettyItems level items)
  | level, [], h => by rw [itemDocs, Doc.SpellsMoreItems, prettyItems]
  | level, item :: items, h => by
    rw [itemDocs, Doc.SpellsMoreItems]
    exact ⟨[], newLine (level + 1) ++ item.pretty (level + 1), prettyItems level items,
      areBlanks_nil, spaced_newLine _ (spells_pretty (level + 1) item h.1),
      spells_prettyItems level items h.2, by simp [prettyItems]⟩

theorem spells_prettyMembers : ∀ (level : Nat) (members : List (String × Value)),
    WholeMembers members → Doc.SpellsMoreMembers (memberDocs members) (prettyMembers level members)
  | level, [], h => by rw [memberDocs, Doc.SpellsMoreMembers, prettyMembers]
  | level, (name, value) :: members, h => by
    rw [memberDocs, Doc.SpellsMoreMembers]
    exact ⟨[], newLine (level + 1) ++ writeText name, [], byte ' ' :: value.pretty (level + 1),
      prettyMembers level members, areBlanks_nil, spaced_newLine _ (spellsText_writeText name),
      areBlanks_nil, spaced_blank (spells_pretty (level + 1) value h.1),
      spells_prettyMembers level members h.2, by simp [prettyMembers, bytes]⟩

end

end Value

theorem Value.isSpelledBy_compact {v : Value} (h : v.Whole) : v.doc.IsSpelledBy v.compact :=
  ⟨v.compact, [], Value.spaced_bare (v.spells_compact h), Value.areBlanks_nil,
    (List.append_nil _).symm⟩

theorem document_compact {v : Value} (h : v.Whole) : document v.compact = (v.node, false) := by
  rw [← v.node_doc h]
  exact document_of_spelled (Value.isSpelledBy_compact h)

theorem document_pretty {v : Value} (h : v.Whole) (level : Nat) :
    document (v.pretty level ++ [byte '\n']) = (v.node, false) := by
  rw [← v.node_doc h]
  exact document_of_spelled ⟨v.pretty level, Value.newLine 0,
    Value.spaced_bare (v.spells_pretty level h), Value.areBlanks_newLine 0, rfl⟩

theorem read_of_document {α : Type} {reader : Reader α} {b : Bytes} {v : Value} {x : α}
    (hb : document b = (v.node, false)) (hx : reader v.node = .ok x) : read reader b = .ok x := by
  simp [read, hb, hx]

end Allegiance.Json
