import Allegiance.Proofs.TokenEnds

namespace Allegiance.Json

open Document (Flaw Node Reader Misread)

inductive IsOpen : Node → Prop
  | list (items : List Node) (f : Flaw) : IsOpen (.list items (some f))
  | map (members : List (Node × Node)) (f : Flaw) : IsOpen (.map members (some f))
  | flaw (f : Flaw) : IsOpen (.flaw f)

namespace State

theorem isOpen_enclose {f : Flaw} {n : Node} (h : IsOpen n) (stack : Stack) :
    IsOpen (enclose f n stack) := by
  induction stack generalizing n with
  | nil => exact h
  | cons frame stack ih =>
    rw [enclose, List.foldl_cons]
    cases frame with
    | list items => exact ih (.list ..)
    | map members => exact ih (.map ..)
    | entry members name => exact ih (.map ..)

theorem isOpen_cut (top : Frame) (f : Flaw) : IsOpen (top.cut f) := by
  cases top with
  | list items => exact .list ..
  | map members => exact .map ..
  | entry members name => exact .map ..

/-- A state that is given up is given up on a tree that breaks off. -/
def Sound : State → Prop
  | failed n => IsOpen n
  | _ => True

theorem sound_put (n : Node) (stack : Stack) : (put n stack).Sound := by
  rcases stack with _ | ⟨_ | _ | _, stack⟩ <;> trivial

theorem sound_takeValue (stack : Stack) (t : Token) : (takeValue stack t).Sound := by
  cases t with
  | scalar n => exact sound_put n stack
  | openList => trivial
  | openMap => trivial
  | _ => exact isOpen_enclose (.flaw _) stack

theorem sound_takeName (members : List (Node × Node)) (stack : Stack) (t : Token) :
    (takeName members stack t).Sound := by
  have hfail : ∀ n : Node, IsOpen (enclose .stray
      (.map ((n, .flaw .stray) :: members).reverse (some .stray)) stack) :=
    fun n => isOpen_enclose (.map ..) stack
  unfold takeName
  split <;> first | trivial | exact hfail _

theorem sound_step {s : State} (h : s.Sound) (t : Token) : (s.step t).Sound := by
  unfold step
  split
  all_goals first
    | trivial
    | exact sound_takeValue _ _
    | exact sound_put _ _
    | exact sound_takeName _ _ _
    | exact isOpen_enclose (isOpen_cut _ _) _

theorem sound_foldl {s : State} (h : s.Sound) (ts : List Token) : (ts.foldl step s).Sound := by
  induction ts generalizing s with
  | nil => exact h
  | cons t ts ih => exact ih (sound_step h t)

/-- A text that ends before a value is done leaves a tree that breaks off. -/
theorem finish_cases {s : State} (h : s.Sound) :
    (∃ n surplus, s = .done n surplus) ∨ IsOpen s.finish.1 := by
  cases s with
  | done n surplus => exact .inl ⟨n, surplus, rfl⟩
  | failed n => exact .inr h
  | value stack => exact .inr (isOpen_enclose (.flaw _) stack)
  | first top stack => exact .inr (isOpen_enclose (isOpen_cut top _) stack)
  | next top stack => exact .inr (isOpen_enclose (isOpen_cut top _) stack)
  | member members stack => exact .inr (isOpen_enclose (.map ..) stack)
  | colon members name stack => exact .inr (isOpen_enclose (isOpen_cut _ _) stack)

def IsDone : State → Prop
  | done .. => True
  | _ => False

theorem takeValue_eq_done {stack : Stack} {t : Token} {n : Node} {surplus : Bool}
    (h : takeValue stack t = .done n surplus) : surplus = false ∧ t = .scalar n := by
  cases t with
  | scalar m =>
    rcases stack with _ | ⟨_ | _ | _, stack⟩ <;> cases h
    exact ⟨rfl, rfl⟩
  | _ => cases h

theorem put_eq_done {stack : Stack} {m n : Node} {surplus : Bool}
    (h : put m stack = .done n surplus) : surplus = false := by
  rcases stack with _ | ⟨_ | _ | _, stack⟩ <;> cases h
  rfl

theorem takeName_ne_done {members : List (Node × Node)} {stack : Stack} {t : Token} {n : Node}
    {surplus : Bool} : takeName members stack t ≠ .done n surplus := by
  unfold takeName
  split <;> nofun

/-- A value is done with the bracket that closes it, or it is a scalar. -/
theorem step_eq_done {s : State} {t : Token} {n : Node} {surplus : Bool} (hs : ¬ s.IsDone)
    (h : s.step t = .done n surplus) : surplus = false ∧ (t.Closes ∨ t = .scalar n) := by
  unfold step at h
  split at h
  all_goals first
    | exact absurd h takeName_ne_done
    | exact (takeValue_eq_done h).imp_right .inr
    | exact ⟨put_eq_done h, .inl (.inl rfl)⟩
    | exact ⟨put_eq_done h, .inl (.inr rfl)⟩
    | cases h
  all_goals exact absurd trivial hs

theorem foldl_done (n : Node) (surplus : Bool) (ts : List Token) :
    ts.foldl step (.done n surplus) = .done n (surplus || !ts.isEmpty) := by
  induction ts generalizing surplus with
  | nil => simp
  | cons t ts ih => simp [step, ih]

theorem exists_of_isDone {s : State} (h : s.IsDone) : ∃ n surplus, s = .done n surplus := by
  cases s with
  | done n surplus => exact ⟨n, surplus, rfl⟩
  | _ => exact absurd h id

/-- A value that is done was done at some token. -/
theorem exists_of_foldl_eq_done {s : State} {ts : List Token} {n : Node} {surplus : Bool}
    (hs : ¬ s.IsDone) (h : ts.foldl step s = .done n surplus) :
    ∃ before t after, ts = before ++ t :: after ∧ (t.Closes ∨ t = .scalar n) ∧
      (before ++ [t]).foldl step s = .done n false ∧ surplus = !after.isEmpty := by
  induction ts generalizing s with
  | nil =>
    cases h
    exact absurd trivial hs
  | cons t ts ih =>
    by_cases hdone : (s.step t).IsDone
    · obtain ⟨m, surplus', hm⟩ := exists_of_isDone hdone
      obtain ⟨rfl, ht⟩ := step_eq_done hs hm
      rw [List.foldl_cons, hm, foldl_done] at h
      cases h
      exact ⟨[], t, ts, rfl, ht, hm, rfl⟩
    · obtain ⟨before, t', after, rfl, ht, hbefore, hsurplus⟩ := ih hdone h
      exact ⟨t :: before, t', after, rfl, ht, hbefore, hsurplus⟩

end State

/-- A reader that is content only with a list or map that is closed. -/
structure WantsClosed {α : Type} (reader : Reader α) : Prop where
  scalar : ∀ n x, IsScalar n → reader n ≠ .ok x
  isOpen : ∀ n x, IsOpen n → reader n ≠ .ok x

section Reading

variable {α : Type} {reader : Reader α} {b : Bytes} {x : α}

theorem exists_bracket (h : WantsClosed reader) (hread : readStart reader b = .ok x) :
    ∃ n before t after, reader n = .ok x ∧ t.Closes ∧ Token.ofBytes b = before ++ t :: after ∧
      (before ++ [t]).foldl State.step (.value []) = .done n false ∧
      document b = (n, !after.isEmpty) := by
  rw [readStart, document] at hread
  rcases State.finish_cases (State.sound_foldl (s := .value []) trivial (Token.ofBytes b)) with
    ⟨n, surplus, hdone⟩ | hopen
  · rw [hdone] at hread
    obtain ⟨before, t, after, hts, ht, hbefore, hsurplus⟩ :=
      State.exists_of_foldl_eq_done (s := .value []) id hdone
    refine ⟨n, before, t, after, hread, ?_, hts, hbefore, ?_⟩
    · -- The last token is a bracket, since the reader would refuse a scalar.
      rcases ht with ht | rfl
      · exact ht
      · have hmem : Token.scalar n ∈ Token.ofBytes b := by simp [hts]
        exact absurd hread (h.scalar n x (Token.isScalar_of_mem hmem))
    · rw [document, hdone, hsurplus]
      rfl
  · exact absurd hread (h.isOpen _ x hopen)

theorem read_eq_ok_iff : read reader b = .ok x ↔
    readStart reader b = .ok x ∧ (document b).2 = false := by
  rw [read, readStart]
  cases reader (document b).1 with
  | error e => simp
  | ok y => cases (document b).2 <;> simp

/-- To read the first document of a text is to read a front of the text, which ends with the bracket
that closes it. -/
theorem readStart_eq_ok_iff (h : WantsClosed reader) :
    readStart reader b = .ok x ↔ ∃ front, front <+: b ∧ read reader front = .ok x := by
  constructor
  · intro hread
    obtain ⟨n, before, t, after, hn, ht, hts, hbefore, -⟩ := exists_bracket h hread
    obtain ⟨front, hfront, htokens⟩ := Token.exists_prefix ht hts
    refine ⟨front, hfront, ?_⟩
    rw [read, document, htokens, hbefore, State.finish, hn]
    rfl
  · rintro ⟨front, ⟨later, rfl⟩, hread⟩
    obtain ⟨hstart, hsurplus⟩ := read_eq_ok_iff.mp hread
    obtain ⟨n, before, t, after, hn, ht, hts, hbefore, hdocument⟩ := exists_bracket h hstart
    rw [hdocument] at hsurplus
    have hnothing : after = [] := by simpa using hsurplus
    subst hnothing
    rw [readStart, document, Token.ofBytes_append ht hts, hts, List.foldl_append, hbefore,
      State.foldl_done]
    exact hn

end Reading

end Allegiance.Json
