import Allegiance.Json.Token

namespace Allegiance.Json

open Document (Node)

namespace Token

theorem collect_eq (seen : List Token) (b : Bytes) :
    collect seen b = seen.reverse ++ ofBytes b := by
  unfold ofBytes
  induction hn : b.length using Nat.strongRecOn generalizing seen b with
  | ind n ih =>
    rw [collect, collect]
    split
    · simp
    · rename_i t rest h
      have hlt := length_next? h
      rw [ih rest.length (hn ▸ hlt) (t :: seen) rest rfl, ih rest.length (hn ▸ hlt) [t] rest rfl]
      simp

theorem ofBytes_of_next? {b rest : Bytes} {t : Token} (h : next? b = some (t, rest)) :
    ofBytes b = t :: ofBytes rest := by
  rw [ofBytes, collect]
  split
  · rename_i hnone
    rw [h] at hnone
    cases hnone
  · rename_i t' rest' h'
    rw [h] at h'
    cases h'
    rw [collect_eq]
    rfl

theorem ofBytes_of_next?_none {b : Bytes} (h : next? b = none) : ofBytes b = [] := by
  rw [ofBytes, collect]
  split
  · rfl
  · rename_i h'
    rw [h] at h'
    cases h'

theorem ofBytes_nil : ofBytes [] = [] := ofBytes_of_next?_none rfl

theorem ofBytes_scan {c : UInt8} {b rest : Bytes} {t : Token} (hc : isBlank c = false)
    (h : scan c b = (t, rest)) : ofBytes (c :: b) = t :: ofBytes rest :=
  ofBytes_of_next? (by simp [next?, hc, h])

theorem ofBytes_blank {c : UInt8} {b : Bytes} (hc : isBlank c = true) :
    ofBytes (c :: b) = ofBytes b := by
  have hnext : next? (c :: b) = next? b := by simp [next?, hc]
  cases h : next? b with
  | none => rw [ofBytes_of_next?_none h, ofBytes_of_next?_none (hnext.trans h)]
  | some p => rw [ofBytes_of_next? h, ofBytes_of_next? (hnext.trans h)]

theorem ofBytes_blanks {blanks : Bytes} (h : ∀ c ∈ blanks, isBlank c = true) (rest : Bytes) :
    ofBytes (blanks ++ rest) = ofBytes rest := by
  induction blanks with
  | nil => rfl
  | cons c blanks ih =>
    rw [List.cons_append, ofBytes_blank (h c (by simp)), ih (fun c hc => h c (by simp [hc]))]

@[simp] theorem ofBytes_openList (b : Bytes) :
    ofBytes (byte '[' :: b) = .openList :: ofBytes b := ofBytes_scan (by decide) rfl

@[simp] theorem ofBytes_closeList (b : Bytes) :
    ofBytes (byte ']' :: b) = .closeList :: ofBytes b := ofBytes_scan (by decide) rfl

@[simp] theorem ofBytes_openMap (b : Bytes) :
    ofBytes (byte '\x7b' :: b) = .openMap :: ofBytes b := ofBytes_scan (by decide) rfl

@[simp] theorem ofBytes_closeMap (b : Bytes) :
    ofBytes (byte '\x7d' :: b) = .closeMap :: ofBytes b := ofBytes_scan (by decide) rfl

@[simp] theorem ofBytes_comma (b : Bytes) :
    ofBytes (byte ',' :: b) = .comma :: ofBytes b := ofBytes_scan (by decide) rfl

@[simp] theorem ofBytes_colon (b : Bytes) :
    ofBytes (byte ':' :: b) = .colon :: ofBytes b := ofBytes_scan (by decide) rfl

theorem scan_digit {c : UInt8} (h : isDigit c = true) (b : Bytes) :
    scan c b = (number false (c :: b)).map Token.scalar id := by
  have hne : ∀ d, isDigit d = false → c ≠ d := by
    rintro d hd rfl
    rw [h] at hd
    cases hd
  unfold scan
  repeat rw [if_neg (hne _ (by decide))]
  rw [if_pos h]

theorem not_isBlank_of_isDigit {c : UInt8} (h : isDigit c = true) : isBlank c = false := by
  cases hb : isBlank c with
  | false => rfl
  | true =>
    simp only [isBlank, Bool.or_eq_true, decide_eq_true_eq] at hb
    rcases hb with ((rfl | rfl) | rfl) | rfl <;> exact absurd h (by decide)

end Token

end Allegiance.Json
