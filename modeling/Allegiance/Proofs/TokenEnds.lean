import Allegiance.Proofs.Spelling

namespace Allegiance.Json

open Document (Node)

/-- What is taken up from the front of some bytes, and the rest, are told by the bytes taken up and
by how the rest starts. -/
def Leaves {β : Type} (take : Bytes → β) (result : Bytes → β) (b rest : Bytes) : Prop :=
  ∃ front, b = front ++ rest ∧ ∀ q, q.head? = rest.head? → take (front ++ q) = result q

section Leaves

variable {α β : Type}

/-- Nothing is taken up if nothing is asked for but how the bytes start. -/
theorem leaves_all {take result : Bytes → β} {b : Bytes}
    (h : ∀ q, q.head? = b.head? → take q = result q) : Leaves take result b b :=
  ⟨[], rfl, h⟩

theorem leaves_nothing {take result : Bytes → β} {b : Bytes} (h : take b = result []) :
    Leaves take result b [] := by
  refine ⟨b, (List.append_nil b).symm, ?_⟩
  intro q hq
  have hnil : q = [] := List.head?_eq_none_iff.mp hq
  rw [hnil, List.append_nil]
  exact h

theorem Leaves.map {take result : Bytes → α} {b rest : Bytes} (h : Leaves take result b rest)
    (f : α → β) : Leaves (fun b => f (take b)) (fun q => f (result q)) b rest := by
  obtain ⟨front, hb, htake⟩ := h
  exact ⟨front, hb, fun q hq => congrArg f (htake q hq)⟩

theorem Leaves.cons {take take' result : Bytes → β} {b rest : Bytes} (c : UInt8)
    (h : Leaves take result b rest) (hcons : ∀ b, take' (c :: b) = take b) :
    Leaves take' result (c :: b) rest := by
  obtain ⟨front, rfl, htake⟩ := h
  exact ⟨c :: front, rfl, fun q hq => (hcons (front ++ q)).trans (htake q hq)⟩

end Leaves

theorem head?_append_congr {q rest : Bytes} (h : q.head? = rest.head?) (front : Bytes) :
    (front ++ q).head? = (front ++ rest).head? := by
  cases front with
  | nil => exact h
  | cons c front => rfl

theorem digits_leaves {b ds rest : Bytes} (h : digits b = .ok (ds, rest)) :
    Leaves digits (fun q => .ok (ds, q)) b rest := by
  obtain ⟨rfl, hds, hrest⟩ := digits_eq_ok h
  exact ⟨ds, rfl, fun q hq => digits_append hds (fun c hc => hrest c (hq ▸ hc))⟩

theorem wholeDigits_leaves {b ds rest : Bytes} (h : wholeDigits b = .ok (ds, rest)) :
    Leaves wholeDigits (fun q => .ok (ds, q)) b rest := by
  simp only [wholeDigits, bind, Except.bind] at h
  split at h
  · cases h
  · rename_i r hr
    split at h
    · cases h
    · rename_i hzero
      cases h
      obtain ⟨front, hb, hdigits⟩ := digits_leaves hr
      refine ⟨front, hb, ?_⟩
      intro q hq
      simp only [wholeDigits, hdigits q hq, bind, Except.bind, if_neg hzero]

theorem fractionDigits_leaves {b rest : Bytes} {fraction : Option Bytes}
    (h : fractionDigits b = .ok (fraction, rest)) :
    Leaves fractionDigits (fun q => .ok (fraction, q)) b rest := by
  have hnone : ∀ q : Bytes, q.head? ≠ some 46 → fractionDigits q = .ok (none, q) := by
    intro q hq
    cases q with
    | nil => rfl
    | cons c q =>
      have hc : c ≠ 46 := fun hc => hq (congrArg some hc)
      simp [fractionDigits, hc]
  have hsome : ∀ b, fractionDigits (46 :: b) = (digits b).map (fun r => (some r.1, r.2)) := by
    intro b
    rw [fractionDigits, if_pos rfl]
    cases digits b <;> rfl
  by_cases hpoint : b.head? = some 46
  · obtain ⟨b, rfl⟩ := List.head?_eq_some_iff.mp hpoint
    rw [hsome] at h
    cases hr : digits b with
    | error n =>
      rw [hr] at h
      cases h
    | ok r =>
      rw [hr] at h
      cases h
      exact ((digits_leaves hr).map (Except.map fun r => (some r.1, r.2))).cons 46 hsome
  · rw [hnone b hpoint] at h
    cases h
    exact leaves_all (fun q hq => hnone q (hq ▸ hpoint))

/-- Whether a minus comes first, and what comes after the sign. -/
def signed : Bytes → Bool × Bytes
  | s :: r => if s = 45 then (true, r) else if s = 43 then (false, r) else (false, s :: r)
  | [] => (false, [])

theorem spellsSign_signed (b : Bytes) :
    ∃ sign, SpellsSign (signed b).1 sign ∧ b = sign ++ (signed b).2 := by
  cases b with
  | nil => exact ⟨[], .absent, rfl⟩
  | cons s r =>
    by_cases hminus : s = 45
    · subst hminus
      exact ⟨[45], .minus, rfl⟩
    · by_cases hplus : s = 43
      · subst hplus
        exact ⟨[43], .plus, rfl⟩
      · simp only [signed, hminus, hplus, ↓reduceIte]
        exact ⟨[], .absent, rfl⟩

theorem exponentPart_cons {e : UInt8} (he : e = 101 ∨ e = 69) (b : Bytes) :
    exponentPart (e :: b) = (digits (signed b).2).map (fun r =>
      let n : Int := r.1.foldl (fun n d => 10 * n + digitValue d) 0
      (some (if (signed b).1 then -n else n), r.2)) := by
  simp only [exponentPart, he, ↓reduceIte]
  cases b with
  | nil => rfl
  | cons s r =>
    by_cases hminus : s = 45
    · simp only [signed, hminus, ↓reduceIte]
      cases digits r <;> rfl
    · by_cases hplus : s = 43
      · simp only [signed, hplus, ↓reduceIte]
        cases digits r <;> rfl
      · simp only [signed, hplus, hminus, ↓reduceIte]
        cases digits (s :: r) <;> rfl

/-- What an exponent is spelled with, if there is one. -/
theorem exponentPart_eq_ok {b rest : Bytes} {exponent : Option Int}
    (h : exponentPart b = .ok (exponent, rest)) :
    (b = rest ∧ ∀ c ∈ b.head?, c ≠ 101 ∧ c ≠ 69) ∨
    ∃ e negative sign ds, (e = 101 ∨ e = 69) ∧ SpellsSign negative sign ∧ AreDigits ds ∧
      NoDigit rest ∧ b = e :: (sign ++ ds) ++ rest := by
  cases b with
  | nil =>
    cases h
    exact .inl ⟨rfl, by simp⟩
  | cons e b =>
    by_cases he : e = 101 ∨ e = 69
    · right
      rw [exponentPart_cons he] at h
      obtain ⟨sign, hsign, hb⟩ := spellsSign_signed b
      cases hdigits : digits (signed b).2 with
      | error n =>
        rw [hdigits] at h
        cases h
      | ok r =>
        rw [hdigits] at h
        cases h
        obtain ⟨hafter, hds, hrest⟩ := digits_eq_ok hdigits
        refine ⟨e, (signed b).1, sign, r.1, he, hsign, hds, hrest, ?_⟩
        rw [List.cons_append, List.append_assoc, ← hafter, ← hb]
    · simp only [exponentPart, he, ↓reduceIte] at h
      cases h
      exact .inl ⟨rfl, by simpa using he⟩

theorem exponentPart_leaves {b rest : Bytes} {exponent : Option Int}
    (h : exponentPart b = .ok (exponent, rest)) :
    Leaves exponentPart (fun q => .ok (exponent, q)) b rest := by
  rcases exponentPart_eq_ok h with ⟨rfl, habsent⟩ |
    ⟨e, negative, sign, ds, he, hsign, hds, hrest, rfl⟩
  · rw [exponentPart_absent habsent] at h
    cases h
    exact leaves_all (fun q hq => exponentPart_absent (hq ▸ habsent))
  · rw [exponentPart_present he hsign hds hrest] at h
    cases h
    exact ⟨_, rfl, fun q hq => exponentPart_present he hsign hds (fun c hc => hrest c (hq ▸ hc))⟩

theorem literal_leaves {negative : Bool} {b rest : Bytes} {l : Literal}
    (h : literal negative b = .ok (l, rest)) :
    Leaves (literal negative) (fun q => .ok (l, q)) b rest := by
  simp only [literal, bind, Except.bind] at h
  split at h
  · cases h
  rename_i whole hwhole
  split at h
  · cases h
  rename_i fraction hfraction
  split at h
  · cases h
  rename_i exponent hexponent
  cases h
  obtain ⟨w, hb, hw⟩ := wholeDigits_leaves hwhole
  obtain ⟨f, hmid, hf⟩ := fractionDigits_leaves hfraction
  obtain ⟨e, hlast, he⟩ := exponentPart_leaves hexponent
  refine ⟨w ++ (f ++ e), by rw [hb, hmid, hlast, List.append_assoc, List.append_assoc], ?_⟩
  intro q hq
  have hafterFraction : (e ++ q).head? = fraction.2.head? := hlast ▸ head?_append_congr hq e
  have hafterWhole : (f ++ (e ++ q)).head? = whole.2.head? :=
    hmid ▸ head?_append_congr hafterFraction f
  rw [List.append_assoc, List.append_assoc, literal, hw _ hafterWhole]
  simp only [bind, Except.bind, hf _ hafterFraction, he q hq, pure, Except.pure]

theorem number_leaves {negative : Bool} {b rest : Bytes} {n : Node}
    (h : number negative b = (n, rest)) :
    Leaves (number negative) (fun q => (n, q)) b rest := by
  cases hl : literal negative b with
  | error n' =>
    have hbroken : number negative b = (n', []) := by rw [number, hl]
    cases h.symm.trans hbroken
    exact leaves_nothing hbroken
  | ok r =>
    have hread : ∀ b l q, literal negative b = .ok (l, q) → number negative b = (l.node, q) := by
      intro b l q hq
      rw [number, hq]
    cases h.symm.trans (hread b r.1 r.2 hl)
    obtain ⟨front, hb, hliteral⟩ := literal_leaves hl
    exact ⟨front, hb, fun q hq => hread _ _ _ (hliteral q hq)⟩

/-- The first byte of a number is taken up. -/
theorem number_leaves_cons {c : UInt8} {b rest : Bytes} {n : Node}
    (h : number false (c :: b) = (n, rest)) :
    Leaves (fun q => number false (c :: q)) (fun q => (n, q)) b rest := by
  obtain ⟨front, hfront, hnumber⟩ := number_leaves h
  cases front with
  | nil =>
    have hlength := length_number false (c :: b)
    rw [h, ← hfront.trans (List.nil_append _), List.length_cons] at hlength
    omega
  | cons d front =>
    obtain ⟨rfl, hb⟩ := List.cons.inj hfront
    exact ⟨front, hb, hnumber⟩

theorem word_leaves {n n' : Node} {w b rest : Bytes} (h : word n w b = (n', rest)) :
    Leaves (word n w) (fun q => (n', q)) b rest := by
  induction w generalizing b with
  | nil =>
    cases h
    exact leaves_all (fun _ _ => rfl)
  | cons c w ih =>
    cases b with
    | nil =>
      cases h
      exact leaves_nothing rfl
    | cons d b =>
      by_cases hd : d = c
      · have hword : ∀ b, word n (c :: w) (d :: b) = word n w b := fun b => by simp [word, hd]
        exact (ih (hword b ▸ h)).cons d hword
      · have hbroken : word n (c :: w) (d :: b) = (.flaw (.word .malformed), []) := by
          simp [word, hd]
        cases h.symm.trans hbroken
        exact leaves_nothing hbroken

/-- What ends with the quote of a text, as someone sees it who passes the text over. -/
inductive Quoted : Bytes → Prop
  | quote : Quoted [34]
  | plain {b : UInt8} {rest : Bytes} (hquote : b ≠ 34) (hescape : b ≠ 92) (hcontrol : ¬ b < 32)
      (hrest : Quoted rest) : Quoted (b :: rest)
  | letter {e : UInt8} {rest : Bytes} (hcode : e ≠ byte 'u')
      (he : (escapes.lookup e).isSome = true) (hrest : Quoted rest) : Quoted (92 :: e :: rest)
  | code {a b c d : UInt8} {rest : Bytes} (hn : (hexNumber? a b c d).isSome = true)
      (hrest : Quoted rest) : Quoted (92 :: byte 'u' :: a :: b :: c :: d :: rest)

theorem quoted_of_skipText {b rest : Bytes} (h : skipText b = .ok rest) :
    ∃ front, Quoted front ∧ b = front ++ rest := by
  fun_induction skipText b with
  | case2 =>
    cases h
    exact ⟨[34], .quote, rfl⟩
  | case4 _ _ _ _ _ hn _ ih =>
    obtain ⟨front, hfront, rfl⟩ := ih h
    exact ⟨_, .code hn hfront, rfl⟩
  | case7 _ _ hcode he _ ih =>
    obtain ⟨front, hfront, rfl⟩ := ih h
    exact ⟨_, .letter hcode he hfront, rfl⟩
  | case10 _ _ hquote hescape hcontrol ih =>
    obtain ⟨front, hfront, rfl⟩ := ih h
    exact ⟨_, .plain hquote hescape hcontrol hfront, rfl⟩
  | _ => cases h

theorem skipText_quoted {front : Bytes} (h : Quoted front) (rest : Bytes) :
    skipText (front ++ rest) = .ok rest := by
  induction h with
  | quote =>
    rw [List.singleton_append, skipText.eq_def]
    rfl
  | plain hquote hescape hcontrol _ ih =>
    rw [List.cons_append, skipText.eq_def]
    simpa only [hquote, hescape, hcontrol, ↓reduceIte] using ih
  | letter hcode he _ ih =>
    rw [List.cons_append, List.cons_append, skipText.eq_def]
    simp [hcode, he, ih]
  | code hn _ ih =>
    simp only [List.cons_append]
    rw [skipText.eq_def]
    simp [hn, ih]

/-- Where a text ends for whoever passes it over, it also ends for whoever reads it, if he gets that
far. -/
theorem unescape_quoted : ∀ {front : Bytes}, Quoted front → ∀ (seen rest : Bytes),
    unescape seen (front ++ rest) = unescape seen front
  | _, .quote, seen, rest => by
    rw [List.singleton_append, unescape.eq_def, unescape.eq_def seen [34]]
    rfl
  | _, .plain hquote hescape hcontrol hrest, seen, rest => by
    rw [List.cons_append, unescape.eq_def, unescape.eq_def seen (_ :: _)]
    simp only [hquote, hescape, hcontrol, ↓reduceIte, unescape_quoted hrest]
  | _, .letter hcode he hrest, seen, rest => by
    rw [List.cons_append, List.cons_append, unescape.eq_def, unescape.eq_def seen (_ :: _)]
    simp only [hcode, ↓reduceIte, unescape_quoted hrest]
  | _, .code hn hrest, seen, rest => by
    obtain ⟨high, hhigh⟩ := Option.isSome_iff_exists.mp hn
    simp only [List.cons_append]
    rw [unescape.eq_def, unescape.eq_def seen (_ :: _)]
    simp only [hhigh]
    by_cases hlow : 0xdc00 ≤ high ∧ high ≤ 0xdfff
    · simp only [hlow, and_self, ↓reduceIte]
    by_cases hwhole : high < 0xd800 ∨ 0xdfff < high
    · simp only [hlow, hwhole, ↓reduceIte, unescape_quoted hrest]
    -- Half of a pair is left, and the other half lies before the quote if there is one.
    simp only [hlow, hwhole, ↓reduceIte]
    cases hrest with
    | quote => rfl
    | plain _ hescape _ _ => simp [hescape]
    | letter hcode _ _ => simp [hcode]
    | code hn hrest =>
      obtain ⟨low, hlow⟩ := Option.isSome_iff_exists.mp hn
      simp [hlow, unescape_quoted hrest]

theorem text_leaves {b rest : Bytes} {n : Node} (h : text b = (n, rest)) :
    Leaves text (fun q => (n, q)) b rest := by
  cases hskip : skipText b with
  | error p =>
    have hbroken : ∃ n', text b = (n', []) := by
      simp only [text, hskip]
      cases readText b with
      | error e => exact ⟨_, rfl⟩
      | ok s => exact ⟨_, rfl⟩
    obtain ⟨n', hbroken⟩ := hbroken
    cases h.symm.trans hbroken
    exact leaves_nothing hbroken
  | ok after =>
    obtain ⟨front, hfront, rfl⟩ := quoted_of_skipText hskip
    have hread : ∀ q, readText (front ++ q) = readText front := by
      intro q
      rw [readText, readText, unescape_quoted hfront]
    have htext : ∀ q, text (front ++ q) = ((text (front ++ [])).1, q) := by
      intro q
      simp only [text, skipText_quoted hfront, hread]
      cases readText front <;> rfl
    cases h.symm.trans (htext after)
    exact ⟨front, rfl, fun q _ => htext q⟩

namespace Token

def Closes (t : Token) : Prop := t = .closeList ∨ t = .closeMap

end Token

def IsScalar : Node → Prop
  | .moment | .list .. | .map .. => False
  | _ => True

/-- The ways in which a token goes on after its first byte. -/
inductive GoesOn : (Bytes → Token × Bytes) → Prop
  | mark (t : Token) (h : ∀ n, t ≠ .scalar n) : GoesOn (fun b => (t, b))
  | text : GoesOn (fun b => (text b).map .scalar id)
  | word (n : Node) (w : Bytes) (h : IsScalar n) : GoesOn (fun b => (word n w b).map .scalar id)
  | minus : GoesOn (fun b => (number true b).map .scalar id)
  | digit (c : UInt8) : GoesOn (fun b => (number false (c :: b)).map .scalar id)
  | stray : GoesOn (fun _ => (.stray, []))

theorem GoesOn.ite {p : Prop} [Decidable p] {f g : Bytes → Token × Bytes} (hf : GoesOn f)
    (hg : GoesOn g) : GoesOn (fun b => if p then f b else g b) := by
  split
  · exact hf
  · exact hg

theorem scan_goesOn (c : UInt8) : GoesOn (fun b => Token.scan c b) := by
  unfold Token.scan
  repeat' apply GoesOn.ite
  any_goals exact .mark _ nofun
  · exact .text
  · exact .word _ _ trivial
  · exact .word _ _ trivial
  · exact .word _ _ trivial
  · exact .minus
  · exact .digit c
  · exact .stray

theorem Literal.isScalar_node (l : Literal) : IsScalar l.node := by
  rcases l.node_cases with ⟨i, hl⟩ | ⟨x, hl⟩ | hl <;> rw [hl] <;> trivial

section Broken

variable {b : Bytes} {n : Node}

theorem digits_error (h : digits b = .error n) : IsScalar n := by
  simp only [digits] at h
  split at h <;> cases h
  trivial

theorem wholeDigits_error (h : wholeDigits b = .error n) : IsScalar n := by
  cases hd : digits b with
  | error n' =>
    rw [wholeDigits, hd] at h
    cases h
    exact digits_error hd
  | ok r =>
    simp only [wholeDigits, hd, bind, Except.bind] at h
    split at h <;> cases h
    trivial

theorem fractionDigits_error (h : fractionDigits b = .error n) : IsScalar n := by
  cases b with
  | nil => cases h
  | cons c b =>
    simp only [fractionDigits] at h
    split at h
    · cases hd : digits b with
      | error n' =>
        rw [hd] at h
        cases h
        exact digits_error hd
      | ok r =>
        rw [hd] at h
        cases h
    · cases h

theorem exponentPart_error (h : exponentPart b = .error n) : IsScalar n := by
  cases b with
  | nil => cases h
  | cons e b =>
    by_cases he : e = 101 ∨ e = 69
    · rw [exponentPart_cons he] at h
      cases hd : digits (signed b).2 with
      | error n' =>
        rw [hd] at h
        cases h
        exact digits_error hd
      | ok r =>
        rw [hd] at h
        cases h
    · simp only [exponentPart, he, ↓reduceIte] at h
      cases h

theorem literal_error {negative : Bool} (h : literal negative b = .error n) : IsScalar n := by
  simp only [literal, bind, Except.bind] at h
  split at h
  · rename_i hwhole
    cases h
    exact wholeDigits_error hwhole
  split at h
  · rename_i hfraction
    cases h
    exact fractionDigits_error hfraction
  split at h
  · rename_i hexponent
    cases h
    exact exponentPart_error hexponent
  cases h

end Broken

theorem number_isScalar (negative : Bool) (b : Bytes) : IsScalar (number negative b).1 := by
  unfold number
  split
  · exact Literal.isScalar_node _
  · rename_i n h
    exact literal_error h

theorem text_isScalar (b : Bytes) : IsScalar (text b).1 := by
  unfold text
  split
  · split <;> trivial
  · split <;> trivial

theorem word_isScalar {n : Node} (h : IsScalar n) (w b : Bytes) : IsScalar (word n w b).1 := by
  fun_induction word n w b with
  | case1 => exact h
  | case2 => trivial
  | case3 _ _ _ ih => exact ih
  | case4 => trivial

section GoesOn

variable {f : Bytes → Token × Bytes} {b rest : Bytes} {t : Token}

theorem GoesOn.isScalar {n : Node} (h : GoesOn f) (hb : f b = (.scalar n, rest)) : IsScalar n := by
  cases h with
  | mark t ht => exact absurd (congrArg Prod.fst hb) (ht n)
  | text =>
    cases hb
    exact text_isScalar b
  | word m w hm =>
    cases hb
    exact word_isScalar hm w b
  | minus =>
    cases hb
    exact number_isScalar true b
  | digit c =>
    cases hb
    exact number_isScalar false (c :: b)
  | stray => cases hb

/-- What comes after a bracket has no say in it. -/
theorem GoesOn.of_closes (h : GoesOn f) (hb : f b = (t, rest)) (ht : t.Closes) (q : Bytes) :
    b = rest ∧ f q = (t, q) := by
  cases h with
  | mark t ht =>
    cases hb
    exact ⟨rfl, rfl⟩
  | _ =>
    rcases ht with rfl | rfl <;> cases hb

theorem GoesOn.leaves (h : GoesOn f) (hb : f b = (t, rest)) :
    Leaves f (fun q => (t, q)) b rest := by
  cases h with
  | mark t ht =>
    cases hb
    exact leaves_all (fun _ _ => rfl)
  | text =>
    cases hb
    exact (text_leaves rfl).map (Prod.map Token.scalar id)
  | word m w hm =>
    cases hb
    exact (word_leaves rfl).map (Prod.map Token.scalar id)
  | minus =>
    cases hb
    exact (number_leaves rfl).map (Prod.map Token.scalar id)
  | digit c =>
    cases hb
    exact (number_leaves_cons rfl).map (Prod.map Token.scalar id)
  | stray =>
    cases hb
    exact leaves_nothing rfl

end GoesOn

namespace Token

theorem next?_append {w : Bytes} (hw : AreBlanks w) {c : UInt8} (hc : isBlank c = false)
    (b : Bytes) : next? (w ++ c :: b) = some (scan c b) := by
  have hdrop : (w ++ c :: b).dropWhile isBlank = c :: b := by
    rw [List.dropWhile_append_of_pos hw]
    simp [hc]
  rw [next?, hdrop]

/-- The first token stands after white space. -/
theorem exists_of_next? {b : Bytes} {r : Token × Bytes} (h : next? b = some r) :
    ∃ w c after, AreBlanks w ∧ isBlank c = false ∧ b = w ++ c :: after ∧ scan c after = r := by
  unfold next? at h
  split at h
  · cases h
  · rename_i c after hdrop
    cases h
    refine ⟨b.takeWhile isBlank, c, after, List.all_eq_true.mp List.all_takeWhile, ?_, ?_, rfl⟩
    · have hstops := List.head?_dropWhile_not isBlank b
      rw [hdrop] at hstops
      exact hstops
    · rw [← hdrop]
      exact List.takeWhile_append_dropWhile.symm

theorem next?_leaves {b rest : Bytes} {t : Token} (h : next? b = some (t, rest)) :
    Leaves next? (fun q => some (t, q)) b rest := by
  obtain ⟨w, c, after, hw, hc, rfl, hscan⟩ := exists_of_next? h
  obtain ⟨front, rfl, hfront⟩ := (scan_goesOn c).leaves hscan
  refine ⟨w ++ c :: front, by simp, ?_⟩
  intro q hq
  rw [List.append_assoc, List.cons_append, next?_append hw hc]
  exact congrArg some (hfront q hq)

theorem next?_closes {b rest : Bytes} {t : Token} (h : next? b = some (t, rest)) (ht : t.Closes) :
    ∃ front, b = front ++ rest ∧ ∀ q, next? (front ++ q) = some (t, q) := by
  obtain ⟨w, c, after, hw, hc, rfl, hscan⟩ := exists_of_next? h
  obtain ⟨rfl, _⟩ := (scan_goesOn c).of_closes hscan ht []
  refine ⟨w ++ [c], by simp, ?_⟩
  intro q
  rw [List.append_assoc, List.singleton_append, next?_append hw hc]
  exact congrArg some ((scan_goesOn c).of_closes hscan ht q).2

theorem exists_next?_of_ofBytes {b : Bytes} {t : Token} {ts : List Token}
    (h : ofBytes b = t :: ts) : ∃ rest, next? b = some (t, rest) ∧ ofBytes rest = ts := by
  cases hnext : next? b with
  | none =>
    rw [ofBytes_of_next?_none hnext] at h
    cases h
  | some r =>
    rw [ofBytes_of_next? hnext] at h
    cases h
    exact ⟨r.2, rfl, rfl⟩

theorem areBlanks_of_ofBytes {b : Bytes} (h : ofBytes b = []) : AreBlanks b := by
  cases hdrop : b.dropWhile isBlank with
  | nil =>
    have hall : b = b.takeWhile isBlank := by
      rw [← List.append_nil (b.takeWhile isBlank), ← hdrop, List.takeWhile_append_dropWhile]
    rw [hall]
    exact List.all_eq_true.mp List.all_takeWhile
  | cons c rest =>
    have hnext : next? b = some (scan c rest) := by rw [next?, hdrop]
    rw [ofBytes_of_next? hnext] at h
    cases h

theorem isScalar_of_mem {b : Bytes} {n : Node} (h : .scalar n ∈ ofBytes b) : IsScalar n := by
  generalize hts : ofBytes b = ts at h
  induction ts generalizing b with
  | nil => cases h
  | cons t ts ih =>
    obtain ⟨rest, hnext, hrest⟩ := exists_next?_of_ofBytes hts
    rcases List.mem_cons.mp h with rfl | hmem
    · obtain ⟨w, c, after, -, -, -, hscan⟩ := exists_of_next? hnext
      exact (scan_goesOn c).isScalar hscan
    · exact ih hrest hmem

/-- The tokens up to a bracket are the tokens of a front of the text. -/
theorem exists_prefix {b : Bytes} {before after : List Token} {t : Token} (ht : t.Closes)
    (h : ofBytes b = before ++ t :: after) :
    ∃ front, front <+: b ∧ ofBytes front = before ++ [t] := by
  induction before generalizing b with
  | nil =>
    obtain ⟨rest, hnext, -⟩ := exists_next?_of_ofBytes h
    obtain ⟨front, rfl, hfront⟩ := next?_closes hnext ht
    refine ⟨front, List.prefix_append front rest, ?_⟩
    have := ofBytes_of_next? (hfront [])
    rwa [List.append_nil, ofBytes_nil] at this
  | cons s before ih =>
    obtain ⟨rest, hnext, hrest⟩ := exists_next?_of_ofBytes h
    obtain ⟨q, ⟨later, hlater⟩, hq⟩ := ih hrest
    obtain ⟨front, rfl, hfront⟩ := next?_leaves hnext
    refine ⟨front ++ q, ⟨later, by rw [List.append_assoc, hlater]⟩, ?_⟩
    -- A token sees the first byte after it, so the front has to go on as the text does.
    have hhead : q.head? = rest.head? := by
      cases q with
      | nil =>
        rw [ofBytes_nil] at hq
        exact absurd hq.symm (by simp)
      | cons c q =>
        rw [← hlater]
        rfl
    rw [ofBytes_of_next? (hfront q hhead), hq, List.cons_append]

theorem ofBytes_append {b : Bytes} {before : List Token} {t : Token} (ht : t.Closes)
    (h : ofBytes b = before ++ [t]) (later : Bytes) :
    ofBytes (b ++ later) = ofBytes b ++ ofBytes later := by
  induction before generalizing b with
  | nil =>
    obtain ⟨rest, hnext, hrest⟩ := exists_next?_of_ofBytes h
    obtain ⟨front, rfl, hfront⟩ := next?_closes hnext ht
    rw [List.append_assoc, ofBytes_of_next? (hfront _), ofBytes_of_next? (hfront rest), hrest,
      ofBytes_blanks (areBlanks_of_ofBytes hrest), List.singleton_append]
  | cons s before ih =>
    obtain ⟨rest, hnext, hrest⟩ := exists_next?_of_ofBytes h
    obtain ⟨front, rfl, hfront⟩ := next?_leaves hnext
    have hhead : (rest ++ later).head? = rest.head? := by
      cases rest with
      | nil =>
        rw [ofBytes_nil] at hrest
        exact absurd hrest.symm (by simp)
      | cons c rest => rfl
    rw [List.append_assoc, ofBytes_of_next? (hfront _ hhead), ih hrest,
      ofBytes_of_next? (hfront rest rfl), List.cons_append]

end Token

end Allegiance.Json
