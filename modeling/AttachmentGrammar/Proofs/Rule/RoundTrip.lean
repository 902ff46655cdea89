import AttachmentGrammar.Proofs.Rule.Token
/-!
Rules written and read again. Main statement: every rule that is read is well formed, and rules are
read back from what is written for them exactly if all of them are well formed, one a line.
-/
namespace AttachmentGrammar

open Text (IsWord isBlank spaced)

/-! Sides. -/

theorem renderTokens_eq (tokens : List Token) :
    renderTokens tokens = spaced (tokens.map Token.render) := rfl

theorem parseTokens_render {tokens : List Token} (h : ∀ t ∈ tokens, t.WellFormed) :
    parseTokens (tokens.map Token.render) = .ok tokens := by
  induction tokens with
  | nil => rfl
  | cons t tokens ih =>
    obtain ⟨ht, htokens⟩ := List.forall_mem_cons.mp h
    rw [List.map_cons, parseTokens, Token.parse_render ht, ih htokens]
    rfl

theorem map_parse_of_parseTokens {words : List (List Char)} {tokens : List Token}
    (h : parseTokens words = .ok tokens) : words.map Token.parse = tokens.map .ok := by
  induction words generalizing tokens with
  | nil => exact Except.ok.inj h ▸ rfl
  | cons word words ih =>
    rw [parseTokens] at h
    cases hword : Token.parse word with
    | error cause =>
      rw [hword] at h
      cases h
    | ok token =>
      rw [hword] at h
      cases hrest : parseTokens words with
      | error e =>
        rw [hrest] at h
        cases h
      | ok rest =>
        rw [hrest] at h
        obtain rfl := Except.ok.inj h
        rw [List.map_cons, List.map_cons, hword, ih hrest]

theorem exists_word_of_parseTokens {words : List (List Char)} {tokens : List Token} {t : Token}
    (h : parseTokens words = .ok tokens) (ht : t ∈ tokens) :
    ∃ w ∈ words, Token.parse w = .ok t := by
  have hmem : Except.ok t ∈ words.map Token.parse := by
    rw [map_parse_of_parseTokens h]
    exact List.mem_map_of_mem ht
  exact List.mem_map.mp hmem

theorem isWord_of_mem_map_render {tokens : List Token} (h : ∀ t ∈ tokens, t.WellFormed) :
    ∀ w ∈ tokens.map Token.render, IsWord w ∧ '|' ∉ w := by
  intro w hw
  obtain ⟨t, ht, rfl⟩ := List.mem_map.mp hw
  exact Token.isWord_render (h t ht)

theorem words_renderTokens {tokens : List Token} (h : ∀ t ∈ tokens, t.WellFormed) :
    Text.words (renderTokens tokens) = tokens.map Token.render :=
  Text.words_spaced fun w hw => (isWord_of_mem_map_render h w hw).1

theorem bar_not_mem_renderTokens {tokens : List Token} (h : ∀ t ∈ tokens, t.WellFormed) :
    '|' ∉ renderTokens tokens := by
  intro hbar
  rcases Text.mem_spaced hbar with heq | ⟨w, hw, hbar⟩
  · cases heq
  · exact (isWord_of_mem_map_render h w hw).2 hbar

theorem Token.head?_render {t : Token} (h : t.WellFormed) :
    t.render.head? = t.pattern.text.toList.head? := by
  obtain ⟨c, rest, htext⟩ := List.exists_cons_of_ne_nil h.pattern.isWord.ne_nil
  rw [Token.render, htext]
  rfl

/-! Statements. -/

namespace Statement

def HasSides : Statement → Prop
  | attachment sources targets => sources ≠ [] ∧ targets ≠ []
  | sourceAggregate sources => sources ≠ []
  | targetAggregate targets => targets ≠ []

/-- No side is left out, and the written line is no comment. -/
structure WellFormed (s : Statement) : Prop where
  hasSides : s.HasSides
  token : ∀ t ∈ s.sources ++ s.targets, t.WellFormed
  opening : ∀ first ∈ s.sources.head?, first.pattern.text.toList.head? ≠ some '#'

variable {s : Statement} {sources targets : List Token} {line : List Char}

theorem ofSides_of_hasSides (h : s.HasSides) : ofSides s.sources s.targets = .ok s := by
  cases s with
  | attachment sources targets =>
    obtain ⟨t, ts, rfl⟩ := List.exists_cons_of_ne_nil h.1
    obtain ⟨u, us, rfl⟩ := List.exists_cons_of_ne_nil h.2
    rfl
  | sourceAggregate sources =>
    obtain ⟨t, ts, rfl⟩ := List.exists_cons_of_ne_nil h
    rfl
  | targetAggregate targets =>
    obtain ⟨u, us, rfl⟩ := List.exists_cons_of_ne_nil h
    rfl

theorem sides_of_ofSides (h : ofSides sources targets = .ok s) :
    s.sources = sources ∧ s.targets = targets ∧ s.HasSides := by
  cases sources with
  | nil =>
    cases targets with
    | nil => cases h
    | cons u us =>
      obtain rfl := Except.ok.inj h
      exact ⟨rfl, rfl, List.cons_ne_nil u us⟩
  | cons t ts =>
    cases targets with
    | nil =>
      obtain rfl := Except.ok.inj h
      exact ⟨rfl, rfl, List.cons_ne_nil t ts⟩
    | cons u us =>
      obtain rfl := Except.ok.inj h
      exact ⟨rfl, rfl, List.cons_ne_nil t ts, List.cons_ne_nil u us⟩

/-- A line gives a statement if it is no comment and its one bar stands between sides whose words
are tokens. -/
theorem parse_eq_ok_some_iff : Statement.parse line = .ok (some s) ↔
    (Text.trim line).head? ≠ some '#' ∧ ∃ left right, Text.trim line = left ++ '|' :: right ∧
      '|' ∉ left ∧ '|' ∉ right ∧ parseTokens (Text.words left) = .ok s.sources ∧
        parseTokens (Text.words right) = .ok s.targets ∧ s.HasSides := by
  constructor
  · intro h
    rw [Statement.parse] at h
    split at h
    · cases h
    · rename_i hcomment
      rw [not_or] at hcomment
      refine ⟨hcomment.2, ?_⟩
      split at h
      · cases h
      · rename_i left right hcut
        obtain ⟨htrim, hleft⟩ := Text.cut_eq_some hcut
        split at h
        · cases h
        · rename_i hright
          refine ⟨left, right, htrim, hleft, hright, ?_⟩
          cases hsources : parseTokens (Text.words left) with
          | error e => simp [hsources, bind, Except.bind] at h
          | ok sources =>
            cases htargets : parseTokens (Text.words right) with
            | error e => simp [hsources, htargets, bind, Except.bind] at h
            | ok targets =>
              cases hs : ofSides sources targets with
              | error e => simp [hsources, htargets, hs, bind, Except.bind] at h
              | ok s' =>
                simp only [hsources, htargets, hs, bind, Except.bind, pure, Except.pure,
                  Except.ok.injEq, Option.some.injEq] at h
                obtain rfl := h
                obtain ⟨rfl, rfl, hsides⟩ := sides_of_ofSides hs
                exact ⟨rfl, rfl, hsides⟩
  · intro h
    obtain ⟨hcomment, left, right, htrim, hleft, hright, hsources, htargets, hsides⟩ := h
    have hne : Text.trim line ≠ [] := by
      rw [htrim]
      exact List.append_ne_nil_of_right_ne_nil _ (List.cons_ne_nil _ _)
    have hcut : Text.cut '|' (Text.trim line) = some (left, right) := by
      rw [htrim]
      exact Text.cut_append hleft
    have hs : ofSides s.sources s.targets = .ok s := ofSides_of_hasSides hsides
    simp [Statement.parse, hne, hcomment, hcut, hright, hsources, htargets, hs, bind, Except.bind,
      pure, Except.pure]

/-- What stands before the bar. -/
def left : Statement → List Char
  | attachment sources _ | sourceAggregate sources => renderTokens sources ++ [' ']
  | targetAggregate _ => []

/-- What stands after the bar. -/
def right : Statement → List Char
  | attachment _ targets | targetAggregate targets => ' ' :: renderTokens targets
  | sourceAggregate _ => []

theorem render_eq (s : Statement) : s.render = s.left ++ '|' :: s.right := by
  cases s <;> simp [render, left, right]

theorem WellFormed.source (h : s.WellFormed) : ∀ t ∈ s.sources, t.WellFormed := fun t ht =>
  h.token t (List.mem_append_left _ ht)

theorem WellFormed.target (h : s.WellFormed) : ∀ t ∈ s.targets, t.WellFormed := fun t ht =>
  h.token t (List.mem_append_right _ ht)

theorem words_left (h : s.WellFormed) :
    Text.words s.left = s.sources.map Token.render ∧ '|' ∉ s.left := by
  have hside {tokens : List Token} (htokens : ∀ t ∈ tokens, t.WellFormed) :
      Text.words (renderTokens tokens ++ [' ']) = tokens.map Token.render ∧
        '|' ∉ renderTokens tokens ++ [' '] := by
    rw [Text.words_concat _ rfl, words_renderTokens htokens, List.mem_append]
    exact ⟨rfl, not_or.mpr ⟨bar_not_mem_renderTokens htokens, by decide⟩⟩
  cases s with
  | attachment sources targets => exact hside h.source
  | sourceAggregate sources => exact hside h.source
  | targetAggregate targets => exact ⟨rfl, List.not_mem_nil⟩

theorem words_right (h : s.WellFormed) :
    Text.words s.right = s.targets.map Token.render ∧ '|' ∉ s.right := by
  have hside {tokens : List Token} (htokens : ∀ t ∈ tokens, t.WellFormed) :
      Text.words (' ' :: renderTokens tokens) = tokens.map Token.render ∧
        '|' ∉ ' ' :: renderTokens tokens := by
    rw [Text.words_cons _ rfl, words_renderTokens htokens, List.mem_cons]
    exact ⟨rfl, not_or.mpr ⟨by decide, bar_not_mem_renderTokens htokens⟩⟩
  cases s with
  | attachment sources targets => exact hside h.target
  | sourceAggregate sources => exact ⟨rfl, List.not_mem_nil⟩
  | targetAggregate targets => exact hside h.target

/-- A written line starts with the first pattern or with the bar. -/
theorem head?_render (h : s.WellFormed) :
    ∀ c ∈ s.render.head?, isBlank c = false ∧ c ≠ '#' := by
  have hside {tokens : List Token} {rest : List Char} (htokens : ∀ t ∈ tokens, t.WellFormed)
      (hne : tokens ≠ [])
      (hopening : ∀ first ∈ tokens.head?, first.pattern.text.toList.head? ≠ some '#') :
      ∀ c ∈ (renderTokens tokens ++ rest).head?, isBlank c = false ∧ c ≠ '#' := by
    obtain ⟨t, ts, rfl⟩ := List.exists_cons_of_ne_nil hne
    have ht := htokens t List.mem_cons_self
    have hhead : (renderTokens (t :: ts)).head? = t.pattern.text.toList.head? := by
      rw [renderTokens_eq, List.map_cons, Text.head?_spaced (Token.isWord_render ht).1.ne_nil,
        Token.head?_render ht]
    obtain ⟨c, others, htext⟩ := List.exists_cons_of_ne_nil ht.pattern.isWord.ne_nil
    rw [List.head?_append, hhead, htext]
    intro d hd
    obtain rfl : c = d := Option.some.inj hd
    refine ⟨ht.pattern.isWord.not_blank c (htext ▸ List.mem_cons_self), ?_⟩
    rintro rfl
    exact hopening t rfl (congrArg List.head? htext)
  cases s with
  | attachment sources targets => exact hside h.source h.hasSides.1 h.opening
  | sourceAggregate sources => exact hside h.source h.hasSides h.opening
  | targetAggregate targets =>
    intro c hc
    obtain rfl := Option.some.inj hc
    decide

theorem getLast?_render (h : s.WellFormed) : ∀ c ∈ s.render.getLast?, isBlank c = false := by
  have hside (before : List Char) {tokens : List Token} (htokens : ∀ t ∈ tokens, t.WellFormed)
      (hne : tokens ≠ []) :
      ∀ c ∈ (before ++ renderTokens tokens).getLast?, isBlank c = false := by
    have hwords : renderTokens tokens ≠ [] := by
      intro hnil
      have hmap := words_renderTokens htokens
      rw [hnil] at hmap
      exact hne (List.map_eq_nil_iff.mp hmap.symm)
    have hlast := Text.getLast?_spaced fun w hw => (isWord_of_mem_map_render htokens w hw).1
    have hend : (before ++ renderTokens tokens).getLast? = (renderTokens tokens).getLast? := by
      rw [List.getLast?_append, List.getLast?_eq_some_getLast hwords]
      rfl
    rw [hend]
    exact hlast
  cases s with
  | attachment sources targets =>
    have heq : (attachment sources targets).render =
        (renderTokens sources ++ [' ', '|', ' ']) ++ renderTokens targets := by
      simp [render]
    rw [heq]
    exact hside _ h.target h.hasSides.2
  | sourceAggregate sources =>
    intro c hc
    rw [render, List.getLast?_append] at hc
    obtain rfl := Option.some.inj hc
    decide
  | targetAggregate targets => exact hside ['|', ' '] h.target h.hasSides

theorem parse_render (h : s.WellFormed) : Statement.parse s.render = .ok (some s) := by
  have htrim : Text.trim s.render = s.render :=
    Text.trim_eq_self (fun c hc => (head?_render h c hc).1) (getLast?_render h)
  rw [parse_eq_ok_some_iff, htrim]
  refine ⟨fun hcomment => (head?_render h '#' hcomment).2 rfl, s.left, s.right, render_eq s,
    (words_left h).2, (words_right h).2, ?_, ?_, h.hasSides⟩
  · rw [(words_left h).1]
    exact parseTokens_render h.source
  · rw [(words_right h).1]
    exact parseTokens_render h.target

theorem newline_not_mem_render (h : s.WellFormed) : '\n' ∉ s.render := by
  have hside {tokens : List Token} (htokens : ∀ t ∈ tokens, t.WellFormed) :
      '\n' ∉ renderTokens tokens := by
    intro hmem
    rcases Text.mem_spaced hmem with heq | ⟨w, hw, hmem⟩
    · cases heq
    · have hblank := (isWord_of_mem_map_render htokens w hw).1.not_blank '\n' hmem
      cases hblank
  cases s with
  | attachment sources targets =>
    have hsources : '\n' ∉ renderTokens sources := hside h.source
    have htargets : '\n' ∉ renderTokens targets := hside h.target
    simp [render, hsources, htargets]
  | sourceAggregate sources =>
    have hsources : '\n' ∉ renderTokens sources := hside h.source
    simp [render, hsources]
  | targetAggregate targets =>
    have htargets : '\n' ∉ renderTokens targets := hside h.target
    simp [render, htargets]

theorem wellFormed_of_parse (h : Statement.parse line = .ok (some s)) : s.WellFormed := by
  obtain ⟨hcomment, left, right, htrim, hleft, hright, hsources, htargets, hsides⟩ :=
    parse_eq_ok_some_iff.mp h
  have hside {side : List Char} {tokens : List Token} (hbar : '|' ∉ side)
      (htokens : parseTokens (Text.words side) = .ok tokens) : ∀ t ∈ tokens, t.WellFormed := by
    intro t ht
    obtain ⟨w, hw, hparse⟩ := exists_word_of_parseTokens htokens ht
    have hwordBar : '|' ∉ w := fun hc => hbar (Text.mem_of_mem_words hw hc)
    exact (Token.wellFormed_of_parse (Text.isWord_of_mem_words hw) hwordBar hparse).1
  refine ⟨hsides, List.forall_mem_append.mpr ⟨hside hleft hsources, hside hright htargets⟩, ?_⟩
  intro first hfirst
  cases left with
  | nil =>
    obtain hnil : s.sources = [] := (Except.ok.inj hsources).symm
    rw [hnil] at hfirst
    cases hfirst
  | cons c rest =>
    -- the first pattern starts where the trimmed line does
    have hhead : (Text.trim line).head? = some c := by
      rw [htrim]
      rfl
    obtain ⟨word, words, hwords⟩ :=
      Text.exists_words_cons (s := rest) (Text.isBlank_head?_trim c hhead)
    have hmap := map_parse_of_parseTokens hsources
    rw [hwords] at hmap
    cases hs : s.sources with
    | nil =>
      rw [hs] at hmap
      cases hmap
    | cons t ts =>
      rw [hs] at hmap hfirst
      obtain rfl : t = first := Option.some.inj hfirst
      have hparse : Token.parse (c :: word) = .ok t := (List.cons.inj hmap).1
      have hmem : c :: word ∈ Text.words (c :: rest) := hwords ▸ List.mem_cons_self
      have hwordBar : '|' ∉ c :: word := fun hc => hleft (Text.mem_of_mem_words hmem hc)
      rw [(Token.wellFormed_of_parse (Text.isWord_of_mem_words hmem) hwordBar hparse).2]
      rwa [hhead] at hcomment

end Statement

/-! Texts. -/

variable {rules rules' : List Rule} {text : String}

def Rule.numbered (first : Nat) (rules : List Rule) : List Rule :=
  (rules.zipIdx first).map fun (rule, line) => { rule with line := line }

theorem map_statement_numbered (first : Nat) :
    (Rule.numbered first rules).map Rule.statement = rules.map Rule.statement := by
  have hzip : rules.map Rule.statement = ((rules.zipIdx first).map Prod.fst).map Rule.statement := by
    rw [List.zipIdx_map_fst]
  rw [hzip, Rule.numbered, List.map_map, List.map_map]
  rfl

theorem map_line_numbered (first : Nat) :
    (Rule.numbered first rules).map Rule.line = List.range' first rules.length := by
  rw [Rule.numbered, List.map_map]
  exact List.zipIdx_map_snd first rules

theorem exists_line_of_mem_parseLines {n : Nat} {lines : List (List Char)} {rule : Rule}
    (h : rule ∈ (parseLines n lines).2) :
    ∃ line ∈ lines, Statement.parse line = .ok (some rule.statement) := by
  induction lines generalizing n with
  | nil => cases h
  | cons line lines ih =>
    have hrest (hmem : rule ∈ (parseLines (n + 1) lines).2) :
        ∃ line' ∈ line :: lines, Statement.parse line' = .ok (some rule.statement) := by
      obtain ⟨line', hline', hparse⟩ := ih hmem
      exact ⟨line', List.mem_cons_of_mem _ hline', hparse⟩
    simp only [parseLines] at h
    split at h
    · exact hrest h
    · exact hrest h
    · rename_i statement hparse
      rcases List.mem_cons.mp h with rfl | h
      · exact ⟨line, List.mem_cons_self, hparse⟩
      · exact hrest h

theorem parseLines_render (h : ∀ rule ∈ rules, rule.statement.WellFormed) (n : Nat) :
    parseLines n (rules.map fun rule => rule.statement.render) = ([], Rule.numbered n rules) := by
  induction rules generalizing n with
  | nil => rfl
  | cons rule rules ih =>
    obtain ⟨hrule, hrules⟩ := List.forall_mem_cons.mp h
    rw [List.map_cons, parseLines, ih hrules, Statement.parse_render hrule]
    rfl

theorem parseRules_eq_ok_iff : parseRules text = .ok rules ↔
    parseLines 1 (Text.lines text.toList) = ([], rules) := by
  rw [parseRules]
  split
  · rename_i rules' heq
    rw [heq, Except.ok.injEq, Prod.mk.injEq, and_iff_right rfl]
  · rename_i errors rules' hne heq
    rw [heq]
    refine iff_of_false nofun fun h => ?_
    obtain ⟨rfl, rfl⟩ := Prod.mk.inj h
    exact hne rfl

theorem wellFormed_of_parseRules (h : parseRules text = .ok rules) :
    ∀ rule ∈ rules, rule.statement.WellFormed := by
  intro rule hrule
  have hmem : rule ∈ (parseLines 1 (Text.lines text.toList)).2 := by
    rw [parseRules_eq_ok_iff.mp h]
    exact hrule
  obtain ⟨line, -, hparse⟩ := exists_line_of_mem_parseLines hmem
  exact Statement.wellFormed_of_parse hparse

theorem parseRules_of_wellFormed (h : ∀ rule ∈ rules, rule.statement.WellFormed) :
    parseRules (Rule.renderAll rules) = .ok (Rule.numbered 1 rules) := by
  have htext : (Rule.renderAll rules).toList =
      (rules.map fun rule => rule.statement.render).flatMap (· ++ ['\n']) := by
    rw [Rule.renderAll, String.toList_ofList, List.flatMap_map]
  have hnewline : ∀ part ∈ rules.map fun rule => rule.statement.render, '\n' ∉ part := by
    intro part hpart
    obtain ⟨rule, hrule, rfl⟩ := List.mem_map.mp hpart
    exact Statement.newline_not_mem_render (h rule hrule)
  have hreturn : ∀ part ∈ rules.map fun rule => rule.statement.render,
      part.getLast? ≠ some '\r' := by
    intro part hpart hlast
    obtain ⟨rule, hrule, rfl⟩ := List.mem_map.mp hpart
    have hblank := Statement.getLast?_render (h rule hrule) '\r' hlast
    cases hblank
  rw [parseRules_eq_ok_iff, htext, Text.lines_flatMap hnewline hreturn]
  exact parseLines_render h 1

theorem renderAll_congr (h : rules'.map Rule.statement = rules.map Rule.statement) :
    Rule.renderAll rules' = Rule.renderAll rules := by
  have hbodies (rules : List Rule) : Rule.renderAll rules = String.ofList
      ((rules.map Rule.statement).flatMap fun statement => statement.render ++ ['\n']) := by
    rw [Rule.renderAll, List.flatMap_map]
  rw [hbodies, hbodies, h]

theorem wellFormed_congr (h : rules'.map Rule.statement = rules.map Rule.statement)
    (hwell : ∀ rule ∈ rules', rule.statement.WellFormed) :
    ∀ rule ∈ rules, rule.statement.WellFormed := by
  intro rule hrule
  have hmem : rule.statement ∈ rules'.map Rule.statement := h ▸ List.mem_map_of_mem hrule
  obtain ⟨rule', hrule', heq⟩ := List.mem_map.mp hmem
  exact heq ▸ hwell rule' hrule'

/-- Reading gives well-formed rules; rules are read back exactly if they are well formed, and then
the lines are counted from 1; so what is read is read back, and writing it again changes nothing. -/
theorem parseRules_renderAll :
    (∀ text rules, parseRules text = .ok rules → ∀ rule ∈ rules, rule.statement.WellFormed) ∧
      (∀ rules, (∃ rules', parseRules (Rule.renderAll rules) = .ok rules' ∧
          rules'.map Rule.statement = rules.map Rule.statement) ↔
        ∀ rule ∈ rules, rule.statement.WellFormed) ∧
      (∀ rules rules', parseRules (Rule.renderAll rules) = .ok rules' →
        rules'.map Rule.statement = rules.map Rule.statement →
          rules'.map Rule.line = List.range' 1 rules.length) ∧
      ∀ text rules, parseRules text = .ok rules →
        ∃ rules', parseRules (Rule.renderAll rules) = .ok rules' ∧
          rules'.map Rule.statement = rules.map Rule.statement ∧
            Rule.renderAll rules' = Rule.renderAll rules := by
  have hback {rules rules' : List Rule} (hparse : parseRules (Rule.renderAll rules) = .ok rules')
      (hsame : rules'.map Rule.statement = rules.map Rule.statement) :
      ∀ rule ∈ rules, rule.statement.WellFormed :=
    wellFormed_congr hsame (wellFormed_of_parseRules hparse)
  refine ⟨fun text rules h => wellFormed_of_parseRules h, fun rules => ⟨?_, ?_⟩,
    fun rules rules' hparse hsame => ?_, fun text rules h => ?_⟩
  · intro h
    obtain ⟨rules', hparse, hsame⟩ := h
    exact hback hparse hsame
  · intro h
    exact ⟨_, parseRules_of_wellFormed h, map_statement_numbered 1⟩
  · obtain rfl : Rule.numbered 1 rules = rules' :=
      Except.ok.inj ((parseRules_of_wellFormed (hback hparse hsame)).symm.trans hparse)
    exact map_line_numbered 1
  · exact ⟨_, parseRules_of_wellFormed (wellFormed_of_parseRules h), map_statement_numbered 1,
      renderAll_congr (map_statement_numbered 1)⟩

def looseText : String :=
  "# tiers\n  api\x7b,2\x7d  ap*\t|db\r\n\n| #log\x7b3,3\x7d"

def looseRules : List Rule := [
  ⟨2, .attachment [⟨⟨"api"⟩, some (.atMost 2)⟩, ⟨⟨"ap*"⟩, none⟩] [⟨⟨"db"⟩, none⟩]⟩,
  ⟨4, .targetAggregate [⟨⟨"#log"⟩, some (.exactly 3)⟩]⟩]

/-- Blanks and the form of ranges are made regular, and the number sign stays behind the bar. -/
theorem parseRules_renderAll_loose : parseRules looseText = .ok looseRules ∧
    Rule.renderAll looseRules = "api\x7b0,2\x7d ap* | db\n| #log\x7b3\x7d\n" ∧
      ∃ rules, parseRules (Rule.renderAll looseRules) = .ok rules ∧
        rules.map Rule.statement = looseRules.map Rule.statement ∧
          rules.map Rule.line = [1, 2] := by
  have hread : parseRules looseText = .ok looseRules := rfl
  obtain ⟨-, -, hlines, hagain⟩ := parseRules_renderAll
  obtain ⟨rules, hparse, hsame, -⟩ := hagain _ _ hread
  exact ⟨hread, by decide +kernel, rules, hparse, hsame, hlines _ _ hparse hsame⟩

end AttachmentGrammar
