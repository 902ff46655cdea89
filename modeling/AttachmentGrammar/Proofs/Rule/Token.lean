import AttachmentGrammar.Proofs.Cardinality
import AttachmentGrammar.Proofs.Text
import AttachmentGrammar.Rule.Parser
/-!
Written tokens. Main statements: a word that reads as a token gives a well-formed one, and what is
written for a well-formed token is a word that reads as that token.
-/
namespace AttachmentGrammar

open Text (IsWord isBlank decimal)

/-- The text is a word without a bar and without braces. -/
structure Pattern.WellFormed (p : Pattern) : Prop where
  isWord : IsWord p.text.toList
  not_mark : ∀ c ∈ p.text.toList, c ≠ '|' ∧ c ≠ '{' ∧ c ≠ '}'

structure Token.WellFormed (t : Token) : Prop where
  pattern : t.pattern.WellFormed
  range : ∀ c ∈ t.cardinality, c.Valid

/-! Ranges. -/

namespace Cardinality

/-- What is written between the braces. -/
def inside (c : Cardinality) : List Char :=
  match c.high with
  | none => decimal c.low.toNat ++ [',']
  | some high =>
    if high = c.low then decimal c.low.toNat
    else decimal c.low.toNat ++ ',' :: decimal high.toNat

theorem render_eq (c : Cardinality) : c.render = '{' :: (c.inside ++ ['}']) := rfl

theorem mem_inside {c : Cardinality} {d : Char} (h : d ∈ c.inside) :
    d.isDigit = true ∨ d = ',' := by
  have hdigit {n : Nat} (hd : d ∈ decimal n) : d.isDigit = true := Text.isDigit_of_mem_decimal hd
  rw [inside] at h
  split at h
  · rcases List.mem_append.mp h with h | h
    · exact .inl (hdigit h)
    · exact .inr (List.mem_singleton.mp h)
  · split at h
    · exact .inl (hdigit h)
    · rcases List.mem_append.mp h with h | h
      · exact .inl (hdigit h)
      · rcases List.mem_cons.mp h with h | h
        · exact .inr h
        · exact .inl (hdigit h)

theorem parse_inside {c : Cardinality} (h : c.Valid) : Cardinality.parse c.inside = .ok c := by
  have hcomma (n : Nat) : ',' ∉ decimal n := Text.not_mem_decimal rfl
  have hbounds : readBounds c.inside = .ok (c.low, c.high) := by
    rw [readBounds, inside]
    cases hhigh : c.high with
    | none =>
      simp only [List.splitOn_append_cons_self_of_not_mem (hcomma _), List.splitOn_nil,
        Text.decimal_ne_nil, readBound, Text.readWord_decimal, if_false, if_true]
      rfl
    | some high =>
      by_cases heq : high = c.low
      · simp only [heq, if_true, List.splitOn_eq_singleton (hcomma _), readBound,
          Text.readWord_decimal]
        rfl
      · simp only [heq, if_false, List.splitOn_append_cons_self_of_not_mem (hcomma _),
          List.splitOn_eq_singleton (hcomma _), Text.decimal_ne_nil, readBound,
          Text.readWord_decimal]
        rfl
  rw [Cardinality.parse, hbounds]
  have hof : ofBounds? c.low c.high = some c := ofBounds?_eq_some_iff.mpr ⟨rfl, h⟩
  simp [hof, bind, Except.bind, pure, Except.pure]

theorem valid_of_parse {s : List Char} {c : Cardinality} (h : Cardinality.parse s = .ok c) :
    c.Valid := by
  rw [Cardinality.parse] at h
  cases hbounds : readBounds s with
  | error e => simp [hbounds, bind, Except.bind] at h
  | ok bounds =>
    obtain ⟨low, high⟩ := bounds
    simp only [hbounds, bind, Except.bind] at h
    split at h
    · rename_i d hd
      obtain rfl := Except.ok.inj h
      exact (ofBounds?_eq_some_iff.mp hd).2
    · cases h

end Cardinality

/-! Tokens. -/

namespace Token

variable {t : Token} {w : List Char}

theorem not_blank_of_mem_range {c : Cardinality} {d : Char} (h : d ∈ c.render) :
    isBlank d = false ∧ d ≠ '|' := by
  rw [Cardinality.render_eq, List.mem_cons, List.mem_append, List.mem_singleton] at h
  rcases h with rfl | h | rfl
  · decide
  · rcases Cardinality.mem_inside h with h | rfl
    · refine ⟨Text.isBlank_of_isDigit h, ?_⟩
      rintro rfl
      cases h
    · decide
  · decide

theorem isWord_render (h : t.WellFormed) : IsWord t.render ∧ '|' ∉ t.render := by
  have hchars : ∀ d ∈ t.render, isBlank d = false ∧ d ≠ '|' := by
    intro d hd
    rcases List.mem_append.mp hd with hd | hd
    · exact ⟨h.pattern.isWord.not_blank d hd, (h.pattern.not_mark d hd).1⟩
    · cases hc : t.cardinality with
      | none =>
        rw [hc] at hd
        cases hd
      | some c =>
        rw [hc] at hd
        exact not_blank_of_mem_range hd
  refine ⟨⟨?_, fun d hd => (hchars d hd).1⟩, fun hbar => (hchars '|' hbar).2 rfl⟩
  exact List.append_ne_nil_of_left_ne_nil h.pattern.isWord.ne_nil _

theorem parse_render (h : t.WellFormed) : Token.parse t.render = .ok t := by
  obtain ⟨⟨text⟩, cardinality⟩ := t
  have hopen : '{' ∉ text.toList := fun hmem => (h.pattern.not_mark '{' hmem).2.1 rfl
  have hclose : '}' ∉ text.toList := fun hmem => (h.pattern.not_mark '}' hmem).2.2 rfl
  cases cardinality with
  | none =>
    have hcut : Text.cut '{' text.toList = none := Text.cut_eq_none.mpr hopen
    simp [Token.parse, render, hcut, hclose]
  | some c =>
    have hne : text.toList ≠ [] := h.pattern.isWord.ne_nil
    have hinside (d : Char) (hd : d.isDigit = false) (hcomma : d ≠ ',') : d ∉ c.inside := by
      intro hmem
      rcases Cardinality.mem_inside hmem with h | h
      · rw [h] at hd
        cases hd
      · exact hcomma h
    have hfirst : Text.cut '{' (text.toList ++ '{' :: (c.inside ++ ['}'])) =
        some (text.toList, c.inside ++ ['}']) := Text.cut_append hopen
    have hsecond : Text.cut '}' (c.inside ++ ['}']) = some (c.inside, []) :=
      Text.cut_append (hinside '}' rfl (by decide))
    have hrender : (⟨⟨text⟩, some c⟩ : Token).render =
        text.toList ++ '{' :: (c.inside ++ ['}']) := rfl
    have hrest : '{' ∉ c.inside := hinside '{' rfl (by decide)
    simp [Token.parse, hrender, hfirst, hsecond, hne, hclose, hrest,
      Cardinality.parse_inside (h.range c rfl), bind, Except.bind, pure, Except.pure]

/-- A token is a word without braces, or a word with a range in braces at its end. -/
theorem cases_of_parse (h : Token.parse w = .ok t) :
    ('{' ∉ w ∧ '}' ∉ w ∧ t = ⟨⟨String.ofList w⟩, none⟩) ∨
      ∃ pattern range c, w = pattern ++ '{' :: (range ++ ['}']) ∧ pattern ≠ [] ∧ '{' ∉ pattern ∧
        '}' ∉ pattern ∧ Cardinality.parse range = .ok c ∧ t = ⟨⟨String.ofList pattern⟩, some c⟩ := by
  rw [Token.parse] at h
  split at h
  · rename_i hopen
    split at h
    · cases h
    · rename_i hclose
      exact .inl ⟨Text.cut_eq_none.mp hopen, hclose, (Except.ok.inj h).symm⟩
  · rename_i pattern rest hcut
    obtain ⟨rfl, hopen⟩ := Text.cut_eq_some hcut
    split at h
    · cases h
    · rename_i range trailing hrange
      obtain ⟨rfl, -⟩ := Text.cut_eq_some hrange
      split at h
      · cases h
      · rename_i hne
        split at h
        · cases h
        · rename_i hmarks
          split at h
          · cases h
          · rename_i htrailing
            cases hc : Cardinality.parse range with
            | error e => simp [hc, bind, Except.bind] at h
            | ok c =>
              obtain rfl := Decidable.not_not.mp htrailing
              simp only [hc, bind, Except.bind, pure, Except.pure] at h
              exact .inr ⟨pattern, range, c, rfl, hne, hopen, (not_or.mp hmarks).1, hc,
                (Except.ok.inj h).symm⟩

theorem wellFormed_ofList {s : List Char} (hs : IsWord s) (hbar : '|' ∉ s) (hopen : '{' ∉ s)
    (hclose : '}' ∉ s) : (⟨String.ofList s⟩ : Pattern).WellFormed := by
  constructor
  · rwa [String.toList_ofList]
  · rw [String.toList_ofList]
    intro c hc
    refine ⟨?_, ?_, ?_⟩
    · exact fun heq => hbar (heq ▸ hc)
    · exact fun heq => hopen (heq ▸ hc)
    · exact fun heq => hclose (heq ▸ hc)

/-- A token is well formed, and its pattern starts as the word does. -/
theorem wellFormed_of_parse (hw : IsWord w) (hbar : '|' ∉ w) (h : Token.parse w = .ok t) :
    t.WellFormed ∧ t.pattern.text.toList.head? = w.head? := by
  rcases cases_of_parse h with ⟨hopen, hclose, rfl⟩ | ⟨pattern, range, c, rfl, hne, hopen, hclose,
    hc, rfl⟩
  · refine ⟨⟨wellFormed_ofList hw hbar hopen hclose, nofun⟩, ?_⟩
    rw [String.toList_ofList]
  · have hpattern : IsWord pattern :=
      ⟨hne, fun d hd => hw.not_blank d (List.mem_append_left _ hd)⟩
    have hpatternBar : '|' ∉ pattern := fun hd => hbar (List.mem_append_left _ hd)
    refine ⟨⟨wellFormed_ofList hpattern hpatternBar hopen hclose, fun d hd => ?_⟩, ?_⟩
    · obtain rfl := Option.some.inj hd
      exact Cardinality.valid_of_parse hc
    · rw [String.toList_ofList]
      obtain ⟨first, others, rfl⟩ := List.exists_cons_of_ne_nil hne
      rfl

end Token

end AttachmentGrammar
