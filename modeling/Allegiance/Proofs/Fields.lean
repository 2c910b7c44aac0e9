import Allegiance.Proofs.Entries
import Allegiance.Proofs.RereadUsage
import Allegiance.Proofs.Tree

namespace Allegiance

open Document (Node Reader Misread Check foldMembers once required)
open Json (Doc Literal spelled accumulate)

namespace Document

variable {ε α β : Type}

theorem bind_eq_ok_iff {x : Except ε α} {f : α → Except ε β} {y : β} :
    x >>= f = .ok y ↔ ∃ a, x = .ok a ∧ f a = .ok y := by
  cases x with
  | error e => simp [bind, Except.bind]
  | ok a => simp [bind, Except.bind]

theorem check_bind_eq_ok_iff {x : Except ε Unit} {f : Unit → Except ε β} {y : β} :
    x >>= f = .ok y ↔ x = .ok () ∧ f () = .ok y := by
  rw [bind_eq_ok_iff]
  exact ⟨fun ⟨(), h⟩ => h, fun h => ⟨(), h⟩⟩

theorem map_eq_ok_iff {x : Except ε α} {f : α → β} {y : β} :
    x.map f = .ok y ↔ ∃ a, x = .ok a ∧ f a = y := by
  cases x with
  | error e => simp [Except.map]
  | ok a => simp [Except.map]

theorem fill_eq_ok_iff {x : Except ε α} {f : α → β} {y : β} :
    (do pure (f (← x)) : Except ε β) = .ok y ↔ ∃ a, x = .ok a ∧ f a = y := by
  rw [bind_eq_ok_iff]
  simp only [pure, Except.pure, Except.ok.injEq]

theorem exists_fill_iff {x : Except ε α} {f : α → β} {P : β → Prop} :
    (∃ y, (do pure (f (← x)) : Except ε β) = .ok y ∧ P y) ↔ ∃ a, x = .ok a ∧ P (f a) := by
  simp only [fill_eq_ok_iff]
  constructor
  · rintro ⟨_, ⟨a, ha, rfl⟩, h⟩
    exact ⟨a, ha, h⟩
  · rintro ⟨a, ha, h⟩
    exact ⟨_, ⟨a, ha, rfl⟩, h⟩

theorem mapError_eq_ok_iff {ε' : Type} {x : Except ε α} {f : ε → ε'} {y : α} :
    x.mapError f = .ok y ↔ x = .ok y := by
  cases x with
  | error e => simp [Except.mapError]
  | ok a => simp [Except.mapError]

theorem asRead_eq_ok_iff {c : Check} : c.asRead = .ok () ↔ c = .ok () := by
  cases c with
  | error e => simp [Check.asRead]
  | ok a => simp [Check.asRead]

theorem once_eq_ok_iff {name : String} {slot slot' : Option α} {reader : Reader α} {t : Node} :
    once name slot reader t = .ok slot' ↔ slot = none ∧ ∃ x, reader t = .ok x ∧ some x = slot' := by
  cases slot with
  | none => simp [once, within, mapError_eq_ok_iff, map_eq_ok_iff]
  | some x => simp [once]

end Document

namespace Json

/-- The count that a number tells: its digits, if it is nothing but digits. -/
structure Literal.Counts (l : Literal) (n : UInt32) : Prop where
  negative : l.negative = false
  fraction : l.fraction = none
  exponent : l.exponent = none
  value : spelled 0 l.whole = n.toNat

namespace Doc

inductive TellsText : Doc → String → Prop
  | text (s : String) : TellsText (.text s) s

/-- A name may also be told to be missing. -/
inductive TellsName : Doc → Option String → Prop
  | null : TellsName .null none
  | text (s : String) : TellsName (.text s) (some s)

inductive TellsCount : Doc → UInt32 → Prop
  | number {l : Literal} {n : UInt32} (h : l.Counts n) : TellsCount (.number l) n

/-- The name of a weapon and its count. -/
def TellsEntry (m : String × Doc) (e : String × UInt32) : Prop := m.1 = e.1 ∧ m.2.TellsCount e.2

/-- The counts of weapons, one by one, as they are told. -/
inductive TellsCounts : Doc → List (String × UInt32) → Prop
  | map {members : List (String × Doc)} {counts : List (String × UInt32)}
      (h : List.Forall₂ TellsEntry members counts) :
      TellsCounts (.map members) counts

/-- A weapon that is told more than once stays where it was told first and has its last count. -/
def TellsUsage (d : Doc) (entries : List (String × UInt32)) : Prop :=
  ∃ counts, d.TellsCounts counts ∧ entries = Usage.lastCounts counts

/-- The values of the members with a name, wherever they stand. -/
def under (name : String) (members : List (String × Doc)) : List Doc :=
  (members.filter (·.1 = name)).map Prod.snd

/-- A field that comes at most once, and tells what it tells if it is absent. -/
def Optionally {α : Type} (tells : Doc → α → Prop) (absent : α) (values : List Doc) (x : α) :
    Prop :=
  (values = [] ∧ x = absent) ∨ ∃ v, values = [v] ∧ tells v x

end Doc

theorem Literal.read_ne_ok {α : Type} (reader : Reader α) {x : α} (l : Literal)
    (hinteger : ∀ i, reader (.integer i) ≠ .ok x) (hreal : ∀ y, reader (.real y) ≠ .ok x)
    (hrange : reader (.flaw .range) ≠ .ok x) : reader l.node ≠ .ok x := by
  rcases l.node_cases with ⟨i, hl⟩ | ⟨y, hl⟩ | hl
  · exact hl ▸ hinteger i
  · exact hl ▸ hreal y
  · exact hl ▸ hrange

/-- If no digits are left over, all of them count. -/
theorem accumulate_of_isEmpty {n : Nat} {ds : Bytes} (h : (accumulate n ds).2.isEmpty = true) :
    (accumulate n ds).1 = spelled n ds := by
  induction ds generalizing n with
  | nil => rfl
  | cons d ds ih =>
    rw [accumulate] at h ⊢
    split at h
    · rename_i hroom
      rw [if_pos hroom]
      exact ih h
    · cases h

theorem readUInt32_eq_ok {t : Node} {n : UInt32} :
    t.readUInt32 = .ok n ↔ t = .integer n.toNat := by
  constructor
  · intro h
    obtain ⟨k, hk, rfl⟩ := Document.map_eq_ok_iff.mp h
    cases t with
    | integer i =>
      rw [Node.readNat] at hk
      split at hk
      · rename_i hbound
        cases hk
        rw [UInt32.toNat_ofNat_of_lt' (by omega)]
        exact congrArg Node.integer (Int.toNat_of_nonneg hbound.1).symm
      · cases hk
    | _ => cases hk
  · rintro rfl
    exact readUInt32_ofUInt32 n

theorem Literal.readUInt32_node {l : Literal} {n : UInt32} :
    l.node.readUInt32 = .ok n ↔ l.Counts n := by
  rw [readUInt32_eq_ok]
  constructor
  · intro h
    unfold node at h
    simp only at h
    split at h
    · rename_i hparts
      simp only [Option.isNone_iff_eq_none, Bool.not_eq_true'] at hparts
      obtain ⟨hfraction, hexponent, hsurplus, hnegative⟩ := hparts
      rw [accumulate_of_isEmpty hsurplus, Node.integer.injEq, Int.ofNat_inj] at h
      exact ⟨hnegative, hfraction, hexponent, h⟩
    · split at h
      · have hnegative := Node.integer.inj h
        omega
      · split at h <;> cases h
  · rintro ⟨hnegative, hfraction, hexponent, hvalue⟩
    have hsize := n.toNat_lt
    have hwhole : accumulate 0 l.whole = (n.toNat, []) := by
      rw [← hvalue]
      apply accumulate_eq
      rw [hvalue]
      simp only [UInt64.size]
      omega
    simp [node, hwhole, hnegative, hfraction, hexponent]

namespace Doc

theorem readText_node {d : Doc} {s : String} : d.node.readText = .ok s ↔ d.TellsText s := by
  constructor
  · intro h
    cases d with
    | text s' =>
      cases h
      exact .text s
    | number l =>
      exact absurd h (l.read_ne_ok Node.readText (by rintro _ ⟨⟩) (by rintro _ ⟨⟩)
        (by rintro ⟨⟩))
    | _ => cases h
  · rintro ⟨⟩
    rfl

theorem readName_node {d : Doc} {name : Option String} :
    d.node.readOption Node.readText = .ok name ↔ d.TellsName name := by
  constructor
  · intro h
    cases d with
    | null =>
      cases h
      exact .null
    | text s =>
      cases h
      exact .text s
    | number l =>
      exact absurd h (l.read_ne_ok (Node.readOption Node.readText) (by rintro _ ⟨⟩)
        (by rintro _ ⟨⟩) (by rintro ⟨⟩))
    | _ => cases h
  · rintro ⟨⟩ <;> rfl

theorem readUInt32_node {d : Doc} {n : UInt32} : d.node.readUInt32 = .ok n ↔ d.TellsCount n := by
  constructor
  · intro h
    cases d with
    | number l => exact .number (Literal.readUInt32_node.mp h)
    | _ => cases h
  · rintro ⟨h⟩
    exact Literal.readUInt32_node.mpr h

theorem foldMembers_cons_eq_ok {σ : Type} {step : σ → String → Node → Except Misread σ}
    {name : String} {value : Doc} {rest : List (String × Doc)} {s s' : σ} :
    foldMembers step none (memberNodes ((name, value) :: rest)) s = .ok s' ↔
      ∃ mid, step s name value.node = .ok mid ∧
        foldMembers step none (memberNodes rest) mid = .ok s' := by
  rw [memberNodes, foldMembers, Node.nameOf]
  exact Document.bind_eq_ok_iff (x := step s name value.node)

theorem foldMembers_usage {members : List (String × Doc)} {u u' : Usage} :
    foldMembers Usage.readMember none (memberNodes members) u = .ok u' ↔
      ∃ counts, List.Forall₂ TellsEntry members counts ∧
        counts.foldl (fun u e => u.insert e.1 e.2) u = u' := by
  induction members generalizing u with
  | nil =>
    constructor
    · intro h
      exact ⟨[], .nil, Except.ok.inj h⟩
    · rintro ⟨_, ⟨⟩, rfl⟩
      rfl
  | cons m members ih =>
    obtain ⟨w, value⟩ := m
    rw [foldMembers_cons_eq_ok]
    constructor
    · rintro ⟨mid, hmid, hrest⟩
      obtain ⟨n, hn, rfl⟩ := Document.map_eq_ok_iff.mp hmid
      obtain ⟨counts, hcounts, rfl⟩ := ih.mp hrest
      exact ⟨(w, n) :: counts, .cons ⟨rfl, readUInt32_node.mp hn⟩ hcounts, rfl⟩
    · rintro ⟨counts, hcounts, rfl⟩
      cases hcounts with
      | @cons _ e _ counts hentry hcounts =>
        obtain ⟨w', n⟩ := e
        obtain ⟨rfl, hn⟩ : w = w' ∧ value.TellsCount n := hentry
        exact ⟨u.insert w n, Document.map_eq_ok_iff.mpr ⟨n, readUInt32_node.mpr hn, rfl⟩,
          ih.mpr ⟨counts, hcounts, rfl⟩⟩

/-- The usage with the counts that are told. -/
def TellsEntries (d : Doc) (u : Usage) : Prop :=
  ∃ counts, d.TellsCounts counts ∧ Usage.ofList counts = u

theorem readUsage_node {d : Doc} {u : Usage} : Usage.read d.node = .ok u ↔ d.TellsEntries u := by
  constructor
  · intro h
    cases d with
    | map members =>
      obtain ⟨counts, hcounts, hu⟩ := foldMembers_usage.mp h
      exact ⟨counts, .map hcounts, hu⟩
    | number l =>
      exact absurd h (l.read_ne_ok Usage.read (by rintro _ ⟨⟩) (by rintro _ ⟨⟩)
        (by rintro ⟨⟩))
    | _ => cases h
  · rintro ⟨counts, ⟨hcounts⟩, hu⟩
    exact foldMembers_usage.mpr ⟨counts, hcounts, hu⟩

mutual

/-- Other members are looked at only for broken numbers, and for how deep they are. -/
theorem sound_node : ∀ (d : Doc) (room : Nat),
    d.node.sound room = .ok () ↔ d.InRange ∧ d.depth ≤ room
  | .null, room | .bool _, room | .text _, room => by simp [node, Node.sound, InRange, depth]
  | .number l, room => by
    rcases l.node_cases with ⟨i, hl⟩ | ⟨x, hl⟩ | hl <;> simp [node, hl, Node.sound, InRange, depth]
  | .list items, 0 => by simp [node, Node.sound, depth]
  | .list items, room + 1 => by
    have hitems := soundAll_nodes items room
    rw [node, Node.sound, Document.check_bind_eq_ok_iff]
    simpa [Document.closed, Check.of, InRange, depth] using hitems
  | .map members, 0 => by simp [node, Node.sound, depth]
  | .map members, room + 1 => by
    have hmembers := soundMembers_nodes members room
    rw [node, Node.sound, Document.check_bind_eq_ok_iff]
    simpa [Document.closed, Check.of, InRange, depth] using hmembers

theorem soundAll_nodes : ∀ (items : List Doc) (room : Nat),
    Node.soundAll room (itemNodes items) = .ok () ↔ ItemsInRange items ∧ depthOfItems items ≤ room
  | [], room => by simp [itemNodes, Node.soundAll, ItemsInRange, depthOfItems]
  | item :: items, room => by
    rw [itemNodes, Node.soundAll, Document.check_bind_eq_ok_iff, sound_node item,
      soundAll_nodes items, ItemsInRange, depthOfItems, Nat.max_le]
    tauto

theorem soundMembers_nodes : ∀ (members : List (String × Doc)) (room : Nat),
    Node.soundMembers room (memberNodes members) = .ok () ↔
      MembersInRange members ∧ depthOfMembers members ≤ room
  | [], room => by simp [memberNodes, Node.soundMembers, MembersInRange, depthOfMembers]
  | (name, value) :: members, room => by
    have hname : (Node.text name).checkName = .ok () := rfl
    rw [memberNodes, Node.soundMembers, Document.check_bind_eq_ok_iff,
      Document.check_bind_eq_ok_iff, sound_node value, soundMembers_nodes members, MembersInRange,
      depthOfMembers, Nat.max_le]
    tauto

end

theorem inRange_map {members : List (String × Doc)} {room : Nat} :
    (map members).InRange ∧ (map members).depth ≤ room + 1 ↔
      ∀ m ∈ members, m.2.node.sound room = .ok () := by
  induction members with
  | nil => simp [InRange, MembersInRange, depth, depthOfMembers]
  | cons m members ih =>
    simp only [InRange, MembersInRange, depth, depthOfMembers, List.forall_mem_cons,
      sound_node] at ih ⊢
    rw [← ih, Nat.add_le_add_iff_right, Nat.add_le_add_iff_right, Nat.max_le]
    tauto

/-- How a field is filled from the values under its name: it was empty before the only one. -/
inductive Taken {α : Type} (reader : Reader α) : Option α → List Doc → Option α → Prop
  | none (slot : Option α) : Taken reader slot [] slot
  | one {v : Doc} {x : α} (h : reader v.node = .ok x) : Taken reader .none [v] (some x)

@[simp] theorem under_nil (name : String) : under name [] = [] := rfl

theorem under_cons_of_ne {name other : String} (h : other ≠ name) (value : Doc)
    (rest : List (String × Doc)) : under name ((other, value) :: rest) = under name rest := by
  simp [under, h]

/-- A member with the name of the field is taken up before the other members. -/
theorem taken_cons {α : Type} {reader : Reader α} {slot slot' : Option α} {name : String}
    {value : Doc} {rest : List (String × Doc)} :
    Taken reader slot (under name ((name, value) :: rest)) slot' ↔
      ∃ mid, once name slot reader value.node = .ok mid ∧
        Taken reader mid (under name rest) slot' := by
  have hunder : under name ((name, value) :: rest) = value :: under name rest := by
    simp [under]
  rw [hunder]
  generalize under name rest = values
  simp only [Document.once_eq_ok_iff]
  constructor
  · intro h
    cases h with
    | @one _ x hx => exact ⟨some x, ⟨rfl, x, hx, rfl⟩, .none _⟩
  · rintro ⟨_, ⟨rfl, x, hx, rfl⟩, ⟨⟩⟩
    exact .one hx

theorem taken_some_iff {α : Type} {reader : Reader α} {values : List Doc} {x : α} :
    Taken reader none values (some x) ↔ ∃ v, values = [v] ∧ reader v.node = .ok x := by
  constructor
  · intro h
    cases h with
    | @one v _ hx => exact ⟨v, rfl, hx⟩
  · rintro ⟨v, rfl, hx⟩
    exact .one hx

/-- What an empty slot is filled with is what the field tells. -/
theorem taken_iff_optionally {α : Type} {reader : Reader α} {tells : Doc → α → Prop}
    (h : ∀ {d x}, reader d.node = .ok x ↔ tells d x) {values : List Doc} {absent x : α} :
    (∃ slot, Taken reader none values slot ∧ slot.getD absent = x) ↔
      Optionally tells absent values x := by
  constructor
  · rintro ⟨slot, htaken, rfl⟩
    cases slot with
    | none =>
      cases htaken
      exact .inl ⟨rfl, rfl⟩
    | some x =>
      obtain ⟨v, hvalues, hx⟩ := taken_some_iff.mp htaken
      exact .inr ⟨v, hvalues, h.mp hx⟩
  · rintro (⟨rfl, rfl⟩ | ⟨v, rfl, hx⟩)
    · exact ⟨none, .none _, rfl⟩
    · exact ⟨some x, .one (h.mpr hx), rfl⟩

theorem optionally_usage {values : List Doc} {entries : List (String × UInt32)} :
    Optionally TellsUsage [] values entries ↔
      ∃ u, Optionally TellsEntries .empty values u ∧ u.toList = entries := by
  constructor
  · rintro (⟨hvalues, rfl⟩ | ⟨v, hvalues, counts, hcounts, rfl⟩)
    · exact ⟨.empty, .inl ⟨hvalues, rfl⟩, rfl⟩
    · exact ⟨.ofList counts, .inr ⟨v, hvalues, counts, hcounts, rfl⟩, Usage.toList_ofList_eq counts⟩
  · rintro ⟨u, ⟨hvalues, rfl⟩ | ⟨v, hvalues, counts, hcounts, rfl⟩, rfl⟩
    · exact .inl ⟨hvalues, rfl⟩
    · exact .inr ⟨v, hvalues, counts, hcounts, Usage.toList_ofList_eq counts⟩

end Doc

end Json

end Allegiance
