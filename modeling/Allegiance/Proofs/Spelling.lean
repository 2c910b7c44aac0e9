import Allegiance.Proofs.Grammar
import Allegiance.Proofs.Tokens

namespace Allegiance.Json

open Document (Node)

theorem Literal.node_cases (l : Literal) :
    (∃ i, l.node = .integer i) ∨ (∃ x, l.node = .real x) ∨ l.node = .flaw .range := by
  unfold node
  simp only
  split
  · exact .inl ⟨_, rfl⟩
  · split
    · exact .inl ⟨_, rfl⟩
    · split
      · exact .inr (.inl ⟨_, rfl⟩)
      · exact .inr (.inr rfl)

def NoDigit (rest : Bytes) : Prop := ∀ c ∈ rest.head?, isDigit c = false

/-- What cannot go on with a number. -/
def EndsNumber (rest : Bytes) : Prop :=
  ∀ c ∈ rest.head?, isDigit c = false ∧ c ≠ 46 ∧ c ≠ 101 ∧ c ≠ 69

theorem EndsNumber.noDigit {rest : Bytes} (h : EndsNumber rest) : NoDigit rest :=
  fun c hc => (h c hc).1

theorem noDigit_cons {c : UInt8} {rest : Bytes} (h : isDigit c = false) : NoDigit (c :: rest) := by
  intro c' hc
  rw [List.head?_cons, Option.mem_some] at hc
  exact hc ▸ h

theorem endsNumber_nil : EndsNumber [] := by simp [EndsNumber]

theorem endsNumber_cons {c : UInt8} {rest : Bytes}
    (h : isDigit c = false ∧ c ≠ 46 ∧ c ≠ 101 ∧ c ≠ 69) : EndsNumber (c :: rest) := by
  intro c' hc
  rw [List.head?_cons, Option.mem_some] at hc
  exact hc ▸ h

theorem endsNumber_of_isBlank {c : UInt8} {rest : Bytes} (h : isBlank c = true) :
    EndsNumber (c :: rest) := by
  simp only [isBlank, Bool.or_eq_true, decide_eq_true_eq] at h
  rcases h with ((rfl | rfl) | rfl) | rfl <;> exact endsNumber_cons (by decide)

/-- White space ends a number, and so does what comes after it if there is none. -/
theorem AreBlanks.endsNumber {w rest : Bytes} (hw : AreBlanks w) (h : EndsNumber rest) :
    EndsNumber (w ++ rest) := by
  cases w with
  | nil => exact h
  | cons c w => exact endsNumber_of_isBlank (hw c (by simp))

theorem digits_append {ds rest : Bytes} (hds : AreDigits ds) (hrest : NoDigit rest) :
    digits (ds ++ rest) = .ok (ds, rest) := by
  obtain ⟨hne, hall⟩ := hds
  have hends : rest.takeWhile isDigit = [] ∧ rest.dropWhile isDigit = rest := by
    cases rest with
    | nil => exact ⟨rfl, rfl⟩
    | cons c rest => simp [hrest c (by simp)]
  simp [digits, List.takeWhile_append_of_pos hall, List.dropWhile_append_of_pos hall, hends, hne]

/-- Digits are taken up as far as they go. -/
theorem digits_eq_ok {b ds rest : Bytes} (h : digits b = .ok (ds, rest)) :
    b = ds ++ rest ∧ AreDigits ds ∧ NoDigit rest := by
  simp only [digits] at h
  split at h
  · cases h
  · rename_i hsome
    cases h
    refine ⟨List.takeWhile_append_dropWhile.symm,
      ⟨by simpa using hsome, List.all_eq_true.mp List.all_takeWhile⟩, ?_⟩
    intro c hc
    have hstops := List.head?_dropWhile_not isDigit b
    rw [Option.mem_def.mp hc] at hstops
    exact hstops

theorem wholeDigits_append {ds rest : Bytes} (hds : AreDigits ds)
    (hzero : ds.head? = some 48 → ds = [48]) (hrest : NoDigit rest) :
    wholeDigits (ds ++ rest) = .ok (ds, rest) := by
  have hnot : ¬ (ds.head? = some 48 ∧ ds ≠ [48]) := fun h => h.2 (hzero h.1)
  simp [wholeDigits, digits_append hds hrest, bind, Except.bind, hnot]

theorem fractionDigits_append {fraction : Option Bytes} {rest : Bytes}
    (h : ∀ ds ∈ fraction, AreDigits ds) (hrest : NoDigit rest)
    (hpoint : ∀ c ∈ rest.head?, c ≠ 46) :
    fractionDigits (fractionBytes fraction ++ rest) = .ok (fraction, rest) := by
  cases fraction with
  | none =>
    cases rest with
    | nil => rfl
    | cons c rest => simp [fractionBytes, fractionDigits, hpoint c (by simp)]
  | some ds =>
    simp [fractionBytes, fractionDigits, digits_append (h ds rfl) hrest, bind, Except.bind, pure,
      Except.pure]

theorem foldl_digits (n : Nat) (ds : Bytes) :
    ds.foldl (fun (n : Int) d => 10 * n + digitValue d) n = spelled n ds := by
  induction ds generalizing n with
  | nil => rfl
  | cons d ds ih =>
    have hstep : (10 * (n : Int) + digitValue d) = ((10 * n + digitValue d : Nat) : Int) := by
      push_cast
      rfl
    rw [List.foldl_cons, hstep, ih]
    rfl

theorem exponentPart_absent {rest : Bytes} (h : ∀ c ∈ rest.head?, c ≠ 101 ∧ c ≠ 69) :
    exponentPart rest = .ok (none, rest) := by
  cases rest with
  | nil => rfl
  | cons c rest => simp [exponentPart, h c (by simp)]

theorem exponentPart_present {e : UInt8} {negative : Bool} {sign ds rest : Bytes}
    (he : e = 101 ∨ e = 69) (hsign : SpellsSign negative sign) (hds : AreDigits ds)
    (hrest : NoDigit rest) : exponentPart (e :: (sign ++ ds) ++ rest) =
      .ok (some (if negative then -spelled 0 ds else spelled 0 ds), rest) := by
  have hdigits := digits_append hds hrest
  have hvalue : ds.foldl (fun (n : Int) d => 10 * n + digitValue d) 0 = spelled 0 ds :=
    foldl_digits 0 ds
  cases hsign with
  | minus => simp [exponentPart, he, hdigits, hvalue, bind, Except.bind, pure, Except.pure]
  | plus => simp [exponentPart, he, hdigits, hvalue, bind, Except.bind, pure, Except.pure]
  | absent =>
    obtain ⟨hne, hall⟩ := hds
    cases ds with
    | nil => exact absurd rfl hne
    | cons d ds =>
      have hd := hall d (by simp)
      have hsign : d ≠ 45 ∧ d ≠ 43 := by
        constructor
        · rintro rfl
          cases hd
        · rintro rfl
          cases hd
      rw [List.cons_append] at hdigits
      simp [exponentPart, he, hsign, hdigits, hvalue, bind, Except.bind, pure, Except.pure]

theorem exponentPart_append {exponent : Option Int} {e rest : Bytes}
    (h : SpellsExponent exponent e) (hrest : EndsNumber rest) :
    exponentPart (e ++ rest) = .ok (exponent, rest) := by
  cases h with
  | absent => exact exponentPart_absent (fun c hc => (hrest c hc).2.2)
  | present he hsign hds => exact exponentPart_present he hsign hds hrest.noDigit

theorem SpellsExponent.follows {exponent : Option Int} {e rest : Bytes}
    (h : SpellsExponent exponent e) (hrest : EndsNumber rest) :
    NoDigit (e ++ rest) ∧ ∀ c ∈ (e ++ rest).head?, c ≠ 46 := by
  cases h with
  | absent => exact ⟨hrest.noDigit, fun c hc => (hrest c hc).2.1⟩
  | present he =>
    simp only [NoDigit, List.cons_append, List.head?_cons, Option.mem_some]
    rcases he with rfl | rfl
    · exact ⟨by rintro c rfl; rfl, by rintro c rfl; decide⟩
    · exact ⟨by rintro c rfl; rfl, by rintro c rfl; decide⟩

/-- A number that is spelled is read as its literal, and what comes after it is left. -/
theorem literal_spelled {l : Literal} {e rest : Bytes} (hwhole : AreDigits l.whole)
    (hzero : l.whole.head? = some 48 → l.whole = [48])
    (hfraction : ∀ ds ∈ l.fraction, AreDigits ds) (he : SpellsExponent l.exponent e)
    (hrest : EndsNumber rest) :
    literal l.negative (l.whole ++ (fractionBytes l.fraction ++ e) ++ rest) = .ok (l, rest) := by
  obtain ⟨hdigit, hpoint⟩ := he.follows hrest
  have hfollows : NoDigit (fractionBytes l.fraction ++ (e ++ rest)) := by
    cases l.fraction with
    | none => exact hdigit
    | some ds => exact noDigit_cons (by decide)
  rw [List.append_assoc, List.append_assoc]
  simp only [literal, wholeDigits_append hwhole hzero hfollows,
    fractionDigits_append hfraction hdigit hpoint, exponentPart_append he hrest, bind, Except.bind,
    pure, Except.pure]

theorem number_spelled {l : Literal} {e rest : Bytes} (hwhole : AreDigits l.whole)
    (hzero : l.whole.head? = some 48 → l.whole = [48])
    (hfraction : ∀ ds ∈ l.fraction, AreDigits ds) (he : SpellsExponent l.exponent e)
    (hrest : EndsNumber rest) :
    number l.negative (l.whole ++ (fractionBytes l.fraction ++ e) ++ rest) = (l.node, rest) := by
  rw [number, literal_spelled hwhole hzero hfraction he hrest]

theorem Token.scan_minus (b : Bytes) : scan 45 b = (number true b).map Token.scalar id := rfl

theorem Token.ofBytes_number {l : Literal} {b rest : Bytes} (h : l.Spells b)
    (hrest : EndsNumber rest) :
    ofBytes (b ++ rest) = .scalar l.node :: ofBytes rest := by
  obtain ⟨hwhole, hzero, hfraction, e, he, rfl⟩ := h
  have hnumber := number_spelled hwhole hzero hfraction he hrest
  cases hsign : l.negative with
  | true =>
    rw [hsign] at hnumber
    refine ofBytes_scan (c := 45) (by decide) ?_
    rw [scan_minus]
    change (number true (l.whole ++ (fractionBytes l.fraction ++ e) ++ rest)).map _ id = _
    rw [hnumber]
    rfl
  | false =>
    rw [hsign] at hnumber
    cases hds : l.whole with
    | nil => exact absurd hds hwhole.1
    | cons d ds =>
      have hd : isDigit d = true := hwhole.2 d (by simp [hds])
      rw [hds] at hnumber
      refine ofBytes_scan (not_isBlank_of_isDigit hd) ?_
      rw [scan_digit hd]
      exact congrArg (Prod.map Token.scalar id) hnumber

theorem lookup_escapes {p : UInt8 × UInt8} (h : p ∈ escapes) :
    escapes.lookup p.1 = some p.2 ∧ p.1 ≠ byte 'u' := by
  simp only [escapes, List.mem_cons, List.not_mem_nil, or_false] at h
  rcases h with rfl | rfl | rfl | rfl | rfl | rfl | rfl | rfl <;> decide

theorem skipText_spelled {content spelling : Bytes} (h : SpellsContent content spelling)
    (rest : Bytes) : skipText (spelling ++ 34 :: rest) = .ok rest := by
  induction h with
  | nil => simp [skipText.eq_def]
  | plain hb _ ih =>
    obtain ⟨h34, h92, h32⟩ := hb
    rw [List.cons_append, skipText.eq_def]
    simp only [h34, h92, UInt8.not_lt.mpr h32, ↓reduceIte]
    exact ih
  | letter he _ ih =>
    obtain ⟨hlookup, hu⟩ := lookup_escapes he
    rw [List.cons_append, List.cons_append, skipText.eq_def]
    simp [hlookup, hu, ih]
  | code hn _ _ ih =>
    simp only [List.cons_append]
    rw [skipText.eq_def]
    simp [hn, ih]
  | pair hhigh hlow _ _ ih =>
    simp only [List.cons_append]
    rw [skipText.eq_def]
    simp only [hhigh]
    rw [skipText.eq_def]
    simp [hlow, ih]

theorem unescape_spelled {content spelling : Bytes} (h : SpellsContent content spelling)
    (seen rest : Bytes) :
    unescape seen (spelling ++ 34 :: rest) = .ok (seen.reverse ++ content) := by
  induction h generalizing seen with
  | nil => simp [unescape.eq_def]
  | plain hb _ ih =>
    obtain ⟨h34, h92, h32⟩ := hb
    rw [List.cons_append, unescape.eq_def]
    simp only [h34, h92, UInt8.not_lt.mpr h32, ↓reduceIte, ih]
    simp
  | letter he _ ih =>
    obtain ⟨hlookup, hu⟩ := lookup_escapes he
    rw [List.cons_append, List.cons_append, unescape.eq_def]
    simp [hlookup, hu, ih]
  | @code a b c d n content spelling hn hchar _ ih =>
    have hlow : ¬ (0xdc00 ≤ n ∧ n ≤ 0xdfff) := by omega
    simp only [List.cons_append]
    rw [unescape.eq_def]
    simp [hn, hlow, hchar, ih, pushChar, charBytes]
  | @pair a b c d a' b' c' d' high low content spelling hhigh hlow hrange _ ih =>
    obtain ⟨h1, h2, h3, h4⟩ := hrange
    have hnotLow : ¬ (0xdc00 ≤ high ∧ high ≤ 0xdfff) := by omega
    have hsurrogate : ¬ (high < 0xd800 ∨ 0xdfff < high) := by omega
    simp only [List.cons_append]
    rw [unescape.eq_def]
    have hquote : (92 : UInt8) ≠ 34 := by decide
    simp only [hhigh, hnotLow, hsurrogate, hlow, h3, h4, hquote, and_self, ne_eq, not_true_eq_false,
      ↓reduceIte]
    refine (ih _).trans ?_
    rw [pushChar, List.reverse_append, List.reverse_reverse, List.append_assoc]
    rfl

/-- A text is one token, whatever may come after it. -/
theorem Token.ofBytes_text {s : String} {b : Bytes} (h : SpellsText s b) (rest : Bytes) :
    ofBytes (b ++ rest) = .scalar (.text s) :: ofBytes rest := by
  obtain ⟨spelling, hspelling, rfl⟩ := h
  have hread : readText (spelling ++ 34 :: rest) = .ok s := by
    simp [readText, unescape_spelled hspelling]
  have htext : text (spelling ++ 34 :: rest) = (.text s, rest) := by
    simp only [text, skipText_spelled hspelling, hread]
  have hscan : scan 34 (spelling ++ 34 :: rest) = (text (spelling ++ 34 :: rest)).map .scalar id :=
    rfl
  rw [List.cons_append, List.append_assoc]
  refine ofBytes_scan (by decide) ?_
  change scan 34 (spelling ++ 34 :: rest) = _
  rw [hscan, htext]
  rfl

theorem Token.ofBytes_spaced {spells : Bytes → Prop} {tokens : List Token} {b rest : Bytes}
    (h : Spaced spells b)
    (hspells : ∀ bare, spells bare → ofBytes (bare ++ rest) = tokens ++ ofBytes rest) :
    ofBytes (b ++ rest) = tokens ++ ofBytes rest := by
  obtain ⟨blanks, bare, hblanks, hbare, rfl⟩ := h
  rw [List.append_assoc, ofBytes_blanks hblanks, hspells bare hbare]

theorem Token.ofBytes_name {s : String} {b : Bytes} (h : Spaced (SpellsText s) b) (rest : Bytes) :
    ofBytes (b ++ rest) = .scalar (.text s) :: ofBytes rest := by
  have hbare : ∀ bare, SpellsText s bare →
      ofBytes (bare ++ rest) = [.scalar (.text s)] ++ ofBytes rest :=
    fun _ hbare => ofBytes_text hbare rest
  exact Token.ofBytes_spaced h hbare

theorem Doc.endsNumber_moreItems {items : List Doc} {b rest : Bytes} (h : SpellsMoreItems items b)
    (hrest : EndsNumber rest) : EndsNumber (b ++ rest) := by
  cases items with
  | nil =>
    rw [SpellsMoreItems] at h
    rw [h]
    exact hrest
  | cons item items =>
    rw [SpellsMoreItems] at h
    obtain ⟨w, x, y, hw, -, -, rfl⟩ := h
    rw [List.append_assoc]
    exact hw.endsNumber (endsNumber_cons (by decide))

theorem Doc.endsNumber_moreMembers {members : List (String × Doc)} {b rest : Bytes}
    (h : SpellsMoreMembers members b) (hrest : EndsNumber rest) : EndsNumber (b ++ rest) := by
  cases members with
  | nil =>
    rw [SpellsMoreMembers] at h
    rw [h]
    exact hrest
  | cons m members =>
    rw [SpellsMoreMembers] at h
    obtain ⟨w, x, v, y, z, hw, -, -, -, -, rfl⟩ := h
    rw [List.append_assoc]
    exact hw.endsNumber (endsNumber_cons (by decide))

namespace Token

mutual

/-- What spells a document is told into its tokens, whatever may come after it. -/
theorem ofBytes_spelled : ∀ (d : Doc) {b rest : Bytes}, d.Spells b → EndsNumber rest →
    ofBytes (b ++ rest) = d.tokens ++ ofBytes rest
  | .null, b, rest, h, hrest => by
    rw [Doc.Spells] at h
    subst h
    exact ofBytes_scan (by decide) rfl
  | .bool true, b, rest, h, hrest => by
    rw [Doc.Spells] at h
    subst h
    exact ofBytes_scan (by decide) rfl
  | .bool false, b, rest, h, hrest => by
    rw [Doc.Spells] at h
    subst h
    exact ofBytes_scan (by decide) rfl
  | .number l, b, rest, h, hrest => by
    rw [Doc.Spells] at h
    exact ofBytes_number h hrest
  | .text s, b, rest, h, hrest => by
    rw [Doc.Spells] at h
    exact ofBytes_text h rest
  | .list [], b, rest, h, hrest => by
    rw [Doc.Spells] at h
    obtain ⟨w, hw, rfl⟩ := h
    simp [ofBytes_blanks hw, Doc.tokens]
  | .list (item :: items), b, rest, h, hrest => by
    rw [Doc.Spells] at h
    obtain ⟨x, y, w, hx, hy, hw, rfl⟩ := h
    -- A number at the end of an item is ended by the comma, blank or bracket that follows it.
    have hclose : EndsNumber (w ++ byte ']' :: rest) := hw.endsNumber (endsNumber_cons (by decide))
    have hmore := ofBytes_moreItems items hy hclose
    have hfirst := ofBytes_spaced hx
      (fun _ hbare => ofBytes_spelled item hbare (Doc.endsNumber_moreItems hy hclose))
    rw [hmore, ofBytes_blanks hw] at hfirst
    simpa [Doc.tokens] using hfirst
  | .map [], b, rest, h, hrest => by
    rw [Doc.Spells] at h
    obtain ⟨w, hw, rfl⟩ := h
    simp [ofBytes_blanks hw, Doc.tokens]
  | .map ((name, value) :: members), b, rest, h, hrest => by
    rw [Doc.Spells] at h
    obtain ⟨x, v, y, z, w, hx, hv, hy, hz, hw, rfl⟩ := h
    have hclose : EndsNumber (w ++ byte '\x7d' :: rest) :=
      hw.endsNumber (endsNumber_cons (by decide))
    have hmore := ofBytes_moreMembers members hz hclose
    have hfirst := ofBytes_spaced hy
      (fun _ hbare => ofBytes_spelled value hbare (Doc.endsNumber_moreMembers hz hclose))
    rw [hmore, ofBytes_blanks hw] at hfirst
    simp only [List.cons_append, List.append_assoc, ofBytes_openMap, ofBytes_name hx,
      ofBytes_blanks hv, ofBytes_colon, Doc.tokens]
    simpa using hfirst

theorem ofBytes_moreItems : ∀ (items : List Doc) {b rest : Bytes}, Doc.SpellsMoreItems items b →
    EndsNumber rest → ofBytes (b ++ rest) = Doc.moreItems items ++ ofBytes rest
  | [], b, rest, h, hrest => by
    rw [Doc.SpellsMoreItems] at h
    subst h
    rfl
  | item :: items, b, rest, h, hrest => by
    rw [Doc.SpellsMoreItems] at h
    obtain ⟨w, x, y, hw, hx, hy, rfl⟩ := h
    have hmore := ofBytes_moreItems items hy hrest
    have hfirst := ofBytes_spaced hx
      (fun _ hbare => ofBytes_spelled item hbare (Doc.endsNumber_moreItems hy hrest))
    rw [hmore] at hfirst
    simpa [ofBytes_blanks hw, Doc.moreItems] using hfirst

theorem ofBytes_moreMembers : ∀ (members : List (String × Doc)) {b rest : Bytes},
    Doc.SpellsMoreMembers members b → EndsNumber rest →
    ofBytes (b ++ rest) = Doc.moreMembers members ++ ofBytes rest
  | [], b, rest, h, hrest => by
    rw [Doc.SpellsMoreMembers] at h
    subst h
    rfl
  | (name, value) :: members, b, rest, h, hrest => by
    rw [Doc.SpellsMoreMembers] at h
    obtain ⟨w, x, v, y, z, hw, hx, hv, hy, hz, rfl⟩ := h
    have hmore := ofBytes_moreMembers members hz hrest
    have hfirst := ofBytes_spaced hy
      (fun _ hbare => ofBytes_spelled value hbare (Doc.endsNumber_moreMembers hz hrest))
    rw [hmore] at hfirst
    simp only [List.cons_append, List.append_assoc, ofBytes_blanks hw, ofBytes_comma,
      ofBytes_name hx, ofBytes_blanks hv, ofBytes_colon, Doc.moreMembers]
    simpa using hfirst

end

end Token

end Allegiance.Json
