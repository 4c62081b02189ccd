import Scriptlet.Proofs.Yaml.Printer
import Scriptlet.Yaml.Token

/-! The tokens of a block mapping that stands at the start of its lines. One step of the scanner
takes in a key, the colon after it, a value or the end of the text, and each leaves the scanner
where the next can be taken in. -/

namespace Scriptlet.Yaml.Scanner

open Cursor (At)

variable {s : Scanner} {rest : Text} {index line column : Nat}

/-! ### Between tokens -/

/-- Where the scanner can be after a value: at the start of the next line, where a key can begin, or
still at the end of the line. -/
def After (rest : Text) (cur : Cursor) (keyAllowed : Bool) : Prop :=
  keyAllowed = true ∧ (∃ index line, cur.At ⟨rest, index, line, 0⟩) ∨
    keyAllowed = false ∧ ∃ index line column, cur.At ⟨'\n' :: rest, index, line, column⟩

/-- Spaces before a token are skipped. -/
theorem toNextToken_spaces {spaces : Text} {fuel : Nat}
    (h : s.cursor.At ⟨spaces ++ rest, index, line, column⟩) (hspaces : ∀ c ∈ spaces, c = ' ')
    (hrest : endsGap rest = true) (hcomment : rest.head? ≠ some '#') :
    Yields (toNextToken (fuel + 1) s) fun s' => ∃ cur, s' = { s with cursor := cur } ∧
      cur.At ⟨rest, index + spaces.length, line, column + spaces.length⟩ := by
  rw [toNextToken]
  refine (h.ensure 1).bind fun cur h => ?_
  simp only [h.atByteOrderMark, Bool.false_eq_true, if_false]
  obtain ⟨hspace, hbreak⟩ := head?_of_endsGap hrest
  refine (h.skipWhile (fun c hc => by simp [hspaces c hc]) ?_).bind fun cur h => ?_
  · cases rest with
    | nil => rfl
    | cons c rest =>
      have hc : c ≠ ' ' ∧ c ≠ '\t' := by simpa [isSpace] using hspace
      simp [hc]
  · have hhash : (cur.rest.head? == some '#') = false := by
      rw [h.rest]
      simpa using hcomment
    have hnext : cur.rest.head?.any isBreak = false := by rw [h.rest]; exact hbreak
    simp only [hhash, hnext, Bool.false_eq_true, if_false, pure_bind]
    exact .pure ⟨cur, rfl, h⟩

/-- After a value the next line begins, and a key can begin there. -/
theorem toNextToken_after (h : After rest s.cursor s.keyAllowed) (hdepth : s.depth = 0)
    (hrest : endsGap rest = true) (hcomment : rest.head? ≠ some '#') :
    Yields (toNextToken (s.cursor.left + 1) s) fun s' => ∃ cur,
      s' = { s with cursor := cur, keyAllowed := true } ∧
        ∃ index line, cur.At ⟨rest, index, line, 0⟩ := by
  rcases h with ⟨hkeys, index, line, h⟩ | ⟨-, index, line, column, h⟩
  · have h : s.cursor.At ⟨[] ++ rest, index, line, 0⟩ := h
    refine (toNextToken_spaces h (by simp) hrest hcomment).mono ?_
    rintro s' ⟨cur, rfl, h⟩
    exact ⟨cur, by rw [← hkeys], index, line, h⟩
  · rw [toNextToken, h.left]
    refine (h.ensure 1).bind fun cur h => ?_
    simp only [h.atByteOrderMark, Bool.false_eq_true, if_false]
    have h : cur.At ⟨[] ++ '\n' :: rest, index, line, column⟩ := h
    refine (h.skipWhile (by simp) (by simp)).bind fun cur h => ?_
    have hhash : (cur.rest.head? == some '#') = false := by rw [h.rest]; rfl
    have hnext : cur.rest.head?.any isBreak = true := by rw [h.rest]; rfl
    simp only [hhash, hnext, Bool.false_eq_true, if_false, if_true, pure_bind]
    refine (h.takeBreak rfl).bind ?_
    rintro ⟨b, cur⟩ ⟨-, h⟩
    have h : cur.At ⟨[] ++ rest, index + 1, line + 1, 0⟩ := h
    have hkeys : (s.keyAllowed || !s.inFlow) = true := by simp [inFlow, hdepth]
    simp only [hkeys]
    refine (toNextToken_spaces h (by simp) hrest hcomment).mono ?_
    rintro s' ⟨cur, rfl, h⟩
    exact ⟨cur, rfl, _, _, h⟩

/-! ### Candidates -/

theorem saveCandidate_of_not (h : s.keyAllowed = false) : s.saveCandidate = .ok s := by
  rw [saveCandidate, h]
  rfl

theorem dropCandidate_of_not (h : s.candidate.possible = false) : s.dropCandidate = .ok s := by
  rw [dropCandidate]
  simp only [h]
  rfl

theorem saveCandidate_of_allowed (hkeys : s.keyAllowed = true)
    (h : s.candidate.possible = false) :
    s.saveCandidate = .ok
      { s with
        candidate :=
          { possible := true, required := !s.inFlow && s.indent == s.cursor.column,
            number := s.nextNumber, index := s.cursor.index, line := s.cursor.line,
            column := s.cursor.column }
        marked := (s.nextNumber, s.depth) :: s.marked } := by
  rw [saveCandidate, if_neg (by simp [hkeys]), dropCandidate_of_not h]
  rfl

/-! ### Values -/

theorem content_plain {c : Char} {t : Text} (hdepth : s.depth = 0)
    (hgap : isSpace c = false ∧ isBreak c = false) (hindicator : indicators.contains c = false)
    (hmark : ['?', ':', '-'].contains c = true → atWordEnd t = false) :
    s.content c t = s.plainScalar := by
  have hflow : s.inFlow = false := by simp [inFlow, hdepth]
  have hne : ∀ d ∈ indicators, (c == d) = false := by
    intro d hd
    cases h : c == d with
    | false => rfl
    | true =>
      rw [beq_iff_eq.1 h] at hindicator
      simp [hd] at hindicator
  have hend {d : Char} (hd : d ∈ ['?', ':', '-']) : (c == d && atWordEnd t) = false := by
    cases h : c == d with
    | false => rfl
    | true =>
      rw [beq_iff_eq.1 h] at hmark
      simpa using hmark (by simpa using hd)
  have hstarts : startsPlain false (c :: t) = true := by
    rw [startsPlain]
    split
    · next hdash =>
      have : atWordEnd t = false := by simpa [hdash] using hend (d := '-') (by simp)
      cases t with
      | nil => rfl
      | cons d t =>
        have hspace : isSpace d = false := (Bool.or_eq_false_iff.1 this).1
        simp [hspace]
    · split
      · next hmarks =>
        have : atWordEnd t = false := by
          simp only [Bool.or_eq_true, beq_iff_eq] at hmarks
          rcases hmarks with rfl | rfl <;> exact hmark rfl
        simp [this]
      · simp only [hgap.1, hgap.2, hindicator]
        rfl
  rw [content]
  simp only [hflow, hstarts, hend (d := '?') (by simp), hend (d := ':') (by simp),
    hend (d := '-') (by simp), hne '[' (by decide), hne ']' (by decide), hne '\x7b' (by decide),
    hne '\x7d' (by decide), hne ',' (by decide), hne '*' (by decide), hne '&' (by decide),
    hne '!' (by decide), hne '|' (by decide), hne '>' (by decide), hne '\'' (by decide),
    hne '"' (by decide), Bool.false_or, Bool.false_and, Bool.false_eq_true, if_false, if_true]

theorem content_quote {c : Char} (hc : c = '\'' ∨ c = '"') (t : Text) :
    s.content c t = s.quotedScalar c := by
  rcases hc with rfl | rfl <;> rfl

theorem content_bar (hdepth : s.depth = 0) (t : Text) : s.content '|' t = s.blockScalar true := by
  have hflow : s.inFlow = false := by simp [inFlow, hdepth]
  simp only [content, hflow]
  rfl

/-- A value was taken in as a token, and what follows it is still there. -/
def Took (s : Scanner) (text : Text) (quoted : Bool) (rest : Text) (s' : Scanner) : Prop :=
  ∃ cur keys, s' = { s.add (.scalar text quoted) with cursor := cur, keyAllowed := keys } ∧
    After rest cur keys

theorem content_words {c : Char} {t : Text} (hwords : Words (c :: t)) (hopens : OpensPlain (c :: t))
    (h : s.cursor.At ⟨c :: (t ++ '\n' :: rest), index, line, column⟩) (hcolumn : 0 < column)
    (hindent : s.indent = 0) (hdepth : s.depth = 0) (hkeys : s.keyAllowed = false)
    (hrest : endsGap rest = true) :
    Yields (s.content c (t ++ '\n' :: rest)) (s.Took (c :: t) false rest) := by
  obtain ⟨c', t', hct, hindicator, hmark⟩ := hopens
  obtain ⟨rfl, rfl⟩ := List.cons.inj hct
  obtain ⟨_, _, hct, hspace, hbreak, -⟩ := hwords.head?
  obtain ⟨rfl, -⟩ := List.cons.inj hct
  have hmark : ['?', ':', '-'].contains c = true → atWordEnd (t ++ '\n' :: rest) = false := by
    intro hc
    cases t with
    | nil => exact absurd (hmark hc) (by simp [atWordEnd])
    | cons d t => exact hmark hc
  have hflow : s.inFlow = false := by simp [inFlow, hdepth]
  rw [content_plain hdepth ⟨hspace, hbreak⟩ hindicator hmark, plainScalar,
    saveCandidate_of_not hkeys, ok_bind, hflow, hindent]
  refine (plain_words hwords h hcolumn hrest).bind ?_
  rintro p ⟨htext, hnewline, h⟩
  rw [htext]
  exact .pure ⟨p.cursor, p.newline, rfl, .inl ⟨hnewline, h⟩⟩

theorem content_quoted {quote : Char} {write : Char → Text} {body text t : Text}
    (hquote : quote = '\'' ∨ quote = '"') (hbody : QuotedBody quote write body text)
    (h : s.cursor.At ⟨quote :: (body ++ quote :: '\n' :: rest), index, line, column⟩)
    (hkeys : s.keyAllowed = false) : Yields (s.content quote t) (s.Took text true rest) := by
  rw [content_quote hquote, quotedScalar, saveCandidate_of_not hkeys, ok_bind]
  refine (quoted_body hquote hbody h (by simp)).bind ?_
  rintro ⟨_, cur⟩ ⟨rfl, h⟩
  exact .pure ⟨cur, false, rfl, .inr ⟨rfl, h⟩⟩

theorem content_block {text t : Text} (hindent : s.indent = 0) (hdepth : s.depth = 0)
    (hcandidate : s.candidate.possible = false)
    (hread : Yields (block true 0 s.cursor) fun r =>
      r.1 = text ∧ ∃ index line, r.2.At ⟨rest, index, line, 0⟩) :
    Yields (s.content '|' t) (s.Took text true rest) := by
  rw [content_bar hdepth, blockScalar, dropCandidate_of_not hcandidate, ok_bind, hindent]
  refine hread.bind ?_
  rintro ⟨_, cur⟩ ⟨rfl, h⟩
  exact .pure ⟨cur, true, rfl, .inl ⟨rfl, h⟩⟩

/-- A value at the cursor becomes one token. -/
theorem content_value {written text t : Text} {quoted : Bool} {c : Char}
    (hv : Value written text quoted) (hct : written ++ (lineEnd written ++ rest) = c :: t)
    (h : s.cursor.At ⟨c :: t, index, line, column⟩) (hcolumn : 0 < column) (hindent : s.indent = 0)
    (hdepth : s.depth = 0) (hkeys : s.keyAllowed = false)
    (hcandidate : s.candidate.possible = false) (hrest : endsGap rest = true) :
    Yields (s.content c t) (s.Took text quoted rest) := by
  obtain ⟨c', t', hwritten, -, hbreak, -⟩ := hv.exists_cons
  obtain ⟨rfl, rfl⟩ : c' = c ∧ t' ++ (lineEnd written ++ rest) = t := by
    rw [← List.cons.injEq, ← List.cons_append, ← hwritten]
    exact hct
  cases hv with
  | plain hwords hopens =>
    obtain ⟨u, d, hu, hd⟩ := hwords.exists_concat
    have hend : lineEnd written = ['\n'] := by rw [hu, lineEnd_concat hd]
    rw [hend] at h ⊢
    rw [hwritten] at hwords hopens ⊢
    exact content_words hwords hopens h hcolumn hindent hdepth hkeys hrest
  | @quoted quote write body _ hquote hbody =>
    obtain ⟨rfl, rfl⟩ := List.cons.inj hwritten
    have hend : lineEnd (quote :: (body ++ [quote])) = ['\n'] := by
      rw [← List.cons_append]
      exact lineEnd_concat hbreak
    exact content_quoted hquote hbody (by simpa [hend] using h) hkeys
  | lines hb hlead hbody hbreaks hmark =>
    obtain ⟨rfl, rfl⟩ := List.cons.inj hwritten
    exact content_block hindent hdepth hcandidate
      (block_written hb hlead hbody hbreaks hmark rfl h hrest)
  | @breaks b lead hb hlead =>
    obtain ⟨rfl, rfl⟩ := List.cons.inj hwritten
    have hend : lineEnd ('|' :: '2' :: '+' :: b :: text) = [] :=
      lineEnd_breaks ['|', '2', '+'] hb hlead
    exact content_block hindent hdepth hcandidate
      (block_breaks (by simpa [hend] using h) hb hlead hrest)

/-- A block whose first line begins with a tab is refused. -/
theorem content_tab {chomp : Chomp} {t : Text}
    (h : s.cursor.At ⟨'|' :: t, index, line, column⟩)
    (ht : t = chomp.mark ++ '\n' :: ' ' :: ' ' :: '\t' :: rest) (hindent : s.indent = 0)
    (hdepth : s.depth = 0) (hcandidate : s.candidate.possible = false) :
    Fails (s.content '|' t) := by
  rw [content_bar hdepth, blockScalar, dropCandidate_of_not hcandidate, ok_bind, hindent]
  rw [ht] at h
  exact (block_tab h).bind

/-! ### Steps -/

theorem closeBlocks_of_le {column : Int} (hdepth : s.depth = 0) (h : s.indent ≤ column) :
    s.closeBlocks column = s := by
  have hflow : s.inFlow = false := by simp [inFlow, hdepth]
  have hlt : ¬column < s.indent := by omega
  rw [closeBlocks, hflow]
  cases s.indents with
  | nil => rfl
  | cons outer indents => simp [closeBlocks.go, hlt]

theorem afterToken_of_kind {p : Place} {q : List Token} {t : Token} (hqueue : s.queue = q ++ [t])
    (hkind : t.kind ≠ .blockEntry) (h : s.cursor.At p)
    (hcomment : (p.rest.dropWhile isSpace).head? ≠ some '#') :
    Yields s.afterToken fun s' => ∃ cur, s' = { s with cursor := cur } ∧ cur.At p := by
  have hlast : s.queue.getLast? = some t := by simp [hqueue]
  rw [afterToken, hlast]
  split
  · next heq =>
    cases heq
    exact absurd rfl hkind
  · refine (h.passLineComment hcomment).bind fun cur h => ?_
    exact .pure ⟨cur, rfl, h⟩

/-- A step that comes to a token which is not the mark of a document. -/
theorem step_content {s' : Scanner} {c : Char} {t : Text}
    (hnext : toNextToken (s.cursor.left + 1) s = .ok s')
    (h : s'.cursor.At ⟨c :: t, index, line, column⟩) (hdepth : s'.depth = 0)
    (hindent : s'.indent ≤ column) (hmark : column ≠ 0 ∨ c ≠ '-' ∧ c ≠ '.' ∧ c ≠ '%') :
    ∃ cur : Cursor, cur.At ⟨c :: t, index, line, column⟩ ∧
      s.step = { s' with cursor := cur }.content c t >>= afterToken := by
  have hclose : s'.closeBlocks s'.cursor.column = s' :=
    closeBlocks_of_le hdepth (by rw [h.column]; exact hindent)
  obtain ⟨cur, hensure, h⟩ := h.ensure 4
  have hdirective : (cur.column == 0 && c == '%') = false := by
    rw [h.column]
    rcases hmark with hmark | hmark <;> simp [hmark]
  have hstart : cur.atMarker '-' = false :=
    h.atMarker (hmark.imp_right fun hmark => by simpa using hmark.1)
  have hend : cur.atMarker '.' = false :=
    h.atMarker (hmark.imp_right fun hmark => by simpa using hmark.2.1)
  refine ⟨cur, h, ?_⟩
  simp only [step, hnext, ok_bind, hclose, hensure, h.rest, hdirective, hstart, hend,
    Bool.false_eq_true, if_false]

/-- The scanner is in a block at column `indent`, and no key has begun. -/
structure Idle (s : Scanner) (indent : Int) (indents : List Int) : Prop where
  indent : s.indent = indent
  indents : s.indents = indents
  depth : s.depth = 0
  candidate : s.candidate.possible = false
  marked : s.marked = []

/-- A key was read, and the cursor is at the colon after it. -/
structure Pending (s : Scanner) (indent : Int) (indents : List Int) (rest : Text) : Prop where
  indent : s.indent = indent
  indents : s.indents = indents
  depth : s.depth = 0
  candidate : s.candidate.possible = true
  column : s.candidate.column = 0
  marked : s.marked = [(s.candidate.number, 0)]
  cursor : ∃ n, 0 < n ∧ n ≤ keyLimit ∧
    s.cursor.At ⟨':' :: ' ' :: rest, s.candidate.index + n, s.candidate.line, n⟩

/-- After a value and the comment that could follow it, the scanner is where it was. -/
theorem afterToken_after {q : List Token} {t : Token} (hqueue : s.queue = q ++ [t])
    (hkind : t.kind ≠ .blockEntry) (h : After rest s.cursor s.keyAllowed)
    (hrest : endsGap rest = true) (hcomment : rest.head? ≠ some '#') :
    Yields s.afterToken fun s' => ∃ cur, s' = { s with cursor := cur } ∧
      After rest cur s.keyAllowed := by
  rcases h with ⟨hkeys, index, line, h⟩ | ⟨hkeys, index, line, column, h⟩
  · refine (afterToken_of_kind hqueue hkind h ?_).mono ?_
    · cases rest with
      | nil => simp
      | cons c rest =>
        have hspace := (head?_of_endsGap hrest).1
        simp only [List.head?_cons, Option.any_some] at hspace
        simpa [hspace] using hcomment
    · rintro s' ⟨cur, rfl, h⟩
      exact ⟨cur, rfl, .inl ⟨hkeys, index, line, h⟩⟩
  · refine (afterToken_of_kind hqueue hkind h (by simp [isSpace])).mono ?_
    rintro s' ⟨cur, rfl, h⟩
    exact ⟨cur, rfl, .inr ⟨hkeys, index, line, column, h⟩⟩

/-- A value is taken in. -/
theorem step_value {written text : Text} {quoted : Bool} {indents : List Int}
    (hv : Value written text quoted) (hs : s.Idle 0 indents) (hkeys : s.keyAllowed = false)
    (h : s.cursor.At ⟨' ' :: (written ++ (lineEnd written ++ rest)), index, line, column⟩)
    (hrest : endsGap rest = true) (hcomment : rest.head? ≠ some '#') :
    Yields s.step fun s' => s'.Idle 0 indents ∧ After rest s'.cursor s'.keyAllowed ∧
      s'.taken = s.taken ∧ ∃ line, s'.queue = s.queue ++ [⟨.scalar text quoted, line⟩] := by
  obtain ⟨c, t, hct, hspace, hbreak, hhash⟩ := hv.exists_cons
  have hct : written ++ (lineEnd written ++ rest) = c :: (t ++ (lineEnd written ++ rest)) := by
    rw [hct]
    rfl
  have h : s.cursor.At ⟨[' '] ++ c :: (t ++ (lineEnd written ++ rest)), index, line, column⟩ := by
    rw [← hct]
    exact h
  obtain ⟨_, hnext, cur, rfl, h⟩ := toNextToken_spaces h (by simp)
    (by simp [endsGap, hspace, hbreak]) (by simpa using hhash)
  obtain ⟨cur, h, hstep⟩ :=
    step_content hnext h hs.depth (by rw [hs.indent]; omega) (.inl (by simp))
  rw [hstep]
  refine (content_value (s := { s with cursor := cur }) hv hct h (by simp) hs.indent hs.depth hkeys
    hs.candidate hrest).bind ?_
  rintro _ ⟨cur', keys, rfl, h⟩
  refine (afterToken_after rfl (by simp) h hrest hcomment).mono ?_
  rintro _ ⟨cur'', rfl, h⟩
  exact ⟨⟨hs.indent, hs.indents, hs.depth, hs.candidate, hs.marked⟩, h, rfl, _, rfl⟩

/-- A value whose first line begins with a tab is refused. -/
theorem step_tab {chomp : Chomp} {indents : List Int} (hs : s.Idle 0 indents)
    (h : s.cursor.At ⟨' ' :: '|' :: (chomp.mark ++ '\n' :: ' ' :: ' ' :: '\t' :: rest), index, line,
      column⟩) : Fails s.step := by
  have h : s.cursor.At ⟨[' '] ++ '|' :: (chomp.mark ++ '\n' :: ' ' :: ' ' :: '\t' :: rest), index,
      line, column⟩ := h
  obtain ⟨_, hnext, cur, rfl, h⟩ := toNextToken_spaces h (by simp) rfl (by simp)
  obtain ⟨cur, h, hstep⟩ :=
    step_content hnext h hs.depth (by rw [hs.indent]; omega) (.inl (by simp))
  rw [hstep]
  exact (content_tab (s := { s with cursor := cur }) h rfl hs.indent hs.depth hs.candidate).bind

/-- A word that can only be a plain scalar. -/
structure IsKey (name : Text) : Prop where
  word : IsWord name
  head : name.head?.any Char.isAlpha = true
  length : name.length ≤ keyLimit

/-- Characters with which something else than a plain scalar can begin. -/
def marks : List Char := '-' :: '.' :: '%' :: '?' :: ':' :: indicators

theorem IsKey.exists_cons {name : Text} (h : IsKey name) :
    ∃ c t, name = c :: t ∧ isSpace c = false ∧ isBreak c = false ∧ ∀ d ∈ marks, c ≠ d := by
  obtain ⟨c, t, rfl⟩ := List.exists_cons_of_ne_nil h.word.ne_nil
  obtain ⟨hspace, hbreak⟩ := h.word.solid c List.mem_cons_self
  refine ⟨c, t, rfl, hspace, hbreak, ?_⟩
  rintro d hd rfl
  have hall : marks.all (fun c => !c.isAlpha) = true := by decide
  have hnot : (!c.isAlpha) = true := List.all_eq_true.1 hall c hd
  have hhead : c.isAlpha = true := h.head
  rw [hhead] at hnot
  cases hnot

/-- A key at the cursor becomes a token, and a candidate. -/
theorem content_key {c : Char} {u : Text} {indent : Int} {indents : List Int}
    (hname : IsKey (c :: u)) (hs : s.Idle indent indents) (hkeys : s.keyAllowed = true)
    (h : s.cursor.At ⟨c :: (u ++ ':' :: ' ' :: rest), index, line, 0⟩) :
    Yields (s.content c (u ++ ':' :: ' ' :: rest)) fun s' => s'.Pending indent indents rest ∧
      s'.taken = s.taken ∧ s'.candidate.number = s.nextNumber ∧
        ∃ line, s'.queue = s.queue ++ [⟨.scalar (c :: u) false, line⟩] := by
  obtain ⟨c', u', hcu, hspace, hbreak, hne⟩ := hname.exists_cons
  obtain ⟨rfl, rfl⟩ := List.cons.inj hcu
  have hindicator : indicators.contains c = false := by
    cases hc : indicators.contains c with
    | false => rfl
    | true => exact absurd rfl (hne c (by simp [marks, List.contains_iff_mem.1 hc]))
  have hmark : ['?', ':', '-'].contains c = false := by
    simp [hne '?' (by decide), hne ':' (by decide), hne '-' (by decide)]
  have hinside : Place.IsInside ⟨c :: u ++ ':' :: ' ' :: rest, index, line, 0⟩ :=
    .inr ⟨by simpa using hne '-' (by decide), by simpa using hne '.' (by decide)⟩
  rw [content_plain hs.depth ⟨hspace, hbreak⟩ hindicator (by rw [hmark]; exact nofun), plainScalar,
    saveCandidate_of_allowed hkeys hs.candidate, ok_bind]
  simp only [inFlow, hs.depth, Nat.lt_irrefl, decide_false]
  refine (plain_key hname.word h hinside).bind ?_
  rintro p ⟨htext, -, h'⟩
  rw [htext]
  refine .pure ⟨⟨hs.indent, hs.indents, rfl, rfl, h.column, ?_, (c :: u).length, by simp,
    hname.length, ?_⟩, rfl, rfl, _, rfl⟩
  · simp [add, hs.marked]
  · simpa [add, h.index, h.line] using h'

/-- A key at the start of a line is taken in. -/
theorem step_key {name : Text} {indent : Int} {indents : List Int} (hname : IsKey name)
    (hs : s.Idle indent indents) (hindent : indent ≤ 0)
    (h : After (name ++ ':' :: ' ' :: rest) s.cursor s.keyAllowed) :
    Yields s.step fun s' => s'.Pending indent indents rest ∧ s'.taken = s.taken ∧
      s'.candidate.number = s.nextNumber ∧
        ∃ line, s'.queue = s.queue ++ [⟨.scalar name false, line⟩] := by
  obtain ⟨c, u, rfl, hspace, hbreak, hne⟩ := hname.exists_cons
  obtain ⟨_, hnext, cur, rfl, index, line, h⟩ := toNextToken_after h hs.depth
    (by simp [endsGap, hspace, hbreak]) (by simpa using hne '#' (by decide))
  have hmark : (0 : Nat) ≠ 0 ∨ c ≠ '-' ∧ c ≠ '.' ∧ c ≠ '%' :=
    .inr ⟨hne _ (by decide), hne _ (by decide), hne _ (by decide)⟩
  obtain ⟨cur, h, hstep⟩ :=
    step_content hnext h hs.depth (by rw [hs.indent]; exact hindent) hmark
  rw [hstep]
  have hs' : Idle { s with cursor := cur, keyAllowed := true } indent indents :=
    ⟨hs.indent, hs.indents, hs.depth, hs.candidate, hs.marked⟩
  refine (content_key hname hs' rfl h).bind ?_
  rintro s' ⟨hpending, htaken, hnumber, line, hqueue⟩
  obtain ⟨n, hpos, hlimit, h⟩ := hpending.cursor
  refine (afterToken_of_kind hqueue (by simp) h (by simp [isSpace])).mono ?_
  rintro _ ⟨cur, rfl, h⟩
  exact ⟨{ hpending with cursor := ⟨n, hpos, hlimit, h⟩ }, htaken, hnumber, line, hqueue⟩

theorem isOpen_of_pending {indent : Int} {indents : List Int} (hs : s.Pending indent indents rest) :
    s.isOpen s.candidate = .ok true := by
  obtain ⟨n, -, hlimit, h⟩ := hs.cursor
  have hline : ¬s.candidate.line < s.cursor.line := by
    rw [h.line]
    exact Nat.lt_irrefl _
  have hindex : ¬s.candidate.index + keyLimit < s.cursor.index := by
    have := h.index
    simp only at this
    omega
  simp [isOpen, hs.candidate, hline, hindex]
  rfl

theorem insert_of_le {number : Nat} (h : s.taken ≤ number) (t : Token) :
    s.insert number t = { s with queue := s.queue.insertIdx (number - s.taken) t } := by
  rw [insert, if_neg (by omega)]

theorem openBlock_of_le {column number line : Nat} {kind : Token.Kind}
    (h : (column : Int) ≤ s.indent) : s.openBlock column number line kind = .ok s := by
  rw [openBlock, if_pos (by simp [h])]
  rfl

theorem openBlock_of_lt {column number line : Nat} {kind : Token.Kind} (hdepth : s.depth = 0)
    (h : s.indent < column) (hlimit : s.indents.length < depthLimit) :
    s.openBlock column number line kind =
      .ok ({ s with indent := column, indents := s.indent :: s.indents }.insert number
        ⟨kind, line⟩) := by
  have hno : (s.inFlow || decide ((column : Int) ≤ s.indent)) = false := by
    have : ¬(column : Int) ≤ s.indent := by omega
    simp [inFlow, hdepth, this]
  simp only [openBlock, hno, Bool.false_eq_true, if_false, Nat.not_le.2 hlimit]
  rfl

/-- The scanner is at the value of an entry of a block at column zero. -/
structure AtValue (s : Scanner) (indents : List Int) (rest : Text) : Prop where
  idle : s.Idle 0 indents
  keyAllowed : s.keyAllowed = false
  cursor : ∃ index line column, s.cursor.At ⟨' ' :: rest, index, line, column⟩

/-- The scanner with the token of a key before the tokens of its candidate. -/
def withKey (s : Scanner) : Scanner :=
  { s with
    queue := s.queue.insertIdx (s.candidate.number - s.taken) ⟨.key, s.candidate.line⟩ }

/-- The colon makes a key of the candidate; `s'` is the scanner with the tokens before the key. -/
theorem content_colon {s' : Scanner} {indent : Int} {indents indents' : List Int}
    (hs : s.Pending indent indents rest) (hnumber : s.taken ≤ s.candidate.number)
    (hblock : s.withKey.openBlock 0 s.candidate.number s.candidate.line .mappingStart = .ok s')
    (hs' : s' = { s with indent := 0, indents := indents', queue := s'.queue })
    (hcomment : (rest.dropWhile isSpace).head? ≠ some '#') :
    Yields (s.content ':' (' ' :: rest) >>= afterToken) fun s'' => s''.AtValue indents' rest ∧
      s''.taken = s.taken ∧ ∃ line, s''.queue = s'.queue ++ [⟨.value, line⟩] := by
  have hvalue : s.content ':' (' ' :: rest) = s.value := by
    have hend : atWordEnd (' ' :: rest) = true := rfl
    simp only [content, hend, Bool.or_true, Bool.and_true]
    rfl
  obtain ⟨n, -, -, h⟩ := hs.cursor
  rw [withKey, ← hs.column] at hblock
  rw [hvalue, value, isOpen_of_pending hs, ok_bind, if_pos rfl, insert_of_le hnumber, hblock, hs']
  refine (afterToken_of_kind rfl (by simp) h.skip hcomment).mono ?_
  rintro _ ⟨cur, rfl, h⟩
  refine ⟨⟨⟨rfl, rfl, hs.depth, rfl, ?_⟩, rfl, _, _, _, h⟩, rfl, _, rfl⟩
  simp [skip, add, unmark, hs.marked]

/-- A step at the colon after a key. -/
theorem step_pending {indent : Int} {indents : List Int} {Q : Scanner → Prop}
    (hs : s.Pending indent indents rest) (hindent : indent ≤ 0)
    (hcontent : ∀ s' : Scanner, s'.Pending indent indents rest → s'.taken = s.taken →
      s'.candidate = s.candidate → s'.queue = s.queue →
        Yields (s'.content ':' (' ' :: rest) >>= afterToken) Q) :
    Yields s.step Q := by
  obtain ⟨n, hpos, hlimit, h⟩ := hs.cursor
  have h : s.cursor.At ⟨[] ++ ':' :: ' ' :: rest, s.candidate.index + n, s.candidate.line, n⟩ := h
  obtain ⟨_, hnext, cur, rfl, h⟩ := toNextToken_spaces h (by simp) rfl (by simp)
  obtain ⟨cur, h, hstep⟩ := step_content hnext h hs.depth (by rw [hs.indent]; simp; omega)
    (.inl (by simp; omega))
  rw [hstep]
  exact hcontent _ { hs with cursor := ⟨n, hpos, hlimit, h⟩ } rfl rfl rfl

/-- The colon after a key in a block that is open already. -/
theorem step_colon {indents : List Int} (hs : s.Pending 0 indents rest)
    (hnumber : s.taken ≤ s.candidate.number)
    (hcomment : (rest.dropWhile isSpace).head? ≠ some '#') :
    Yields s.step fun s' => s'.AtValue indents rest ∧ s'.taken = s.taken ∧ ∃ line line', s'.queue =
      s.queue.insertIdx (s.candidate.number - s.taken) ⟨.key, line⟩ ++ [⟨.value, line'⟩] := by
  refine step_pending hs (Int.le_refl 0) fun s' hs' htaken hcandidate hqueue => ?_
  rw [← htaken, ← hcandidate] at hnumber ⊢
  rw [← hqueue]
  have hblock : s'.withKey.openBlock 0 s'.candidate.number s'.candidate.line .mappingStart =
      .ok s'.withKey := openBlock_of_le (by rw [withKey, hs'.indent]; exact Int.le_refl 0)
  have hwith : s'.withKey = { s' with indent := 0, indents, queue := s'.withKey.queue } := by
    rw [withKey, ← hs'.indent, ← hs'.indents]
  refine (content_colon hs' hnumber hblock hwith hcomment).mono ?_
  rintro s'' ⟨hvalue, htaken, line, hqueue⟩
  exact ⟨hvalue, htaken, _, line, hqueue⟩

/-- The colon after the first key opens the block. -/
theorem step_colon_first (hs : s.Pending (-1) [] rest) (hnumber : s.taken ≤ s.candidate.number)
    (hcomment : (rest.dropWhile isSpace).head? ≠ some '#') :
    Yields s.step fun s' => s'.AtValue [-1] rest ∧ s'.taken = s.taken ∧ ∃ line line' line'',
      s'.queue = (s.queue.insertIdx (s.candidate.number - s.taken) ⟨.key, line⟩).insertIdx
        (s.candidate.number - s.taken) ⟨.mappingStart, line'⟩ ++ [⟨.value, line''⟩] := by
  refine step_pending hs (by decide) fun s' hs' htaken hcandidate hqueue => ?_
  rw [← htaken, ← hcandidate] at hnumber ⊢
  rw [← hqueue]
  have hlt : s'.withKey.indent < (0 : Nat) := by
    rw [withKey, hs'.indent]
    decide
  have hlimit : s'.withKey.indents.length < depthLimit := by
    rw [withKey, hs'.indents]
    decide
  have hblock : s'.withKey.openBlock 0 s'.candidate.number s'.candidate.line .mappingStart = .ok
      { s' with
        indent := 0
        indents := [-1]
        queue := s'.withKey.queue.insertIdx (s'.candidate.number - s'.taken)
          ⟨.mappingStart, s'.candidate.line⟩ } := by
    rw [openBlock_of_lt (s := s'.withKey) hs'.depth hlt hlimit, insert_of_le (by exact hnumber)]
    simp only [withKey, hs'.indent, hs'.indents]
    rfl
  refine (content_colon hs' hnumber hblock rfl hcomment).mono ?_
  rintro s'' ⟨hvalue, htaken, line, hqueue⟩
  exact ⟨hvalue, htaken, _, _, line, hqueue⟩

/-! ### The end of the text -/

/-- The scanner is at the end of the text. -/
structure AtEnd (s : Scanner) : Prop where
  idle : s.Idle (-1) []
  cursor : ∃ index line, s.cursor.At ⟨[], index, line, 0⟩

theorem step_nil {s' : Scanner} (hnext : toNextToken (s.cursor.left + 1) s = .ok s')
    (h : s'.cursor.At ⟨[], index, line, 0⟩) (hdepth : s'.depth = 0) (hindent : s'.indent ≤ 0) :
    ∃ cur : Cursor, cur.At ⟨[], index, line, 0⟩ ∧ s.step = streamEnd { s' with cursor := cur } := by
  have hclose : s'.closeBlocks s'.cursor.column = s' :=
    closeBlocks_of_le hdepth (by rw [h.column]; exact hindent)
  obtain ⟨cur, hensure, h⟩ := h.ensure 4
  refine ⟨cur, h, ?_⟩
  simp only [step, hnext, ok_bind, hclose, hensure, h.rest]

theorem streamEnd_of_closeBlocks {s' : Scanner} (hcolumn : s.cursor.column = 0)
    (hclose : s.closeBlocks (-1) = s') (hcandidate : s'.candidate.possible = false) :
    s.streamEnd = .ok { s'.add .streamEnd with keyAllowed := false } := by
  simp only [streamEnd, hcolumn, if_true, hclose, dropCandidate_of_not hcandidate]
  rfl

/-- At the end of the text the block is closed. -/
theorem step_end (hs : s.Idle 0 [-1]) (h : After [] s.cursor s.keyAllowed) :
    Yields s.step fun s' => s'.AtEnd ∧ s'.taken = s.taken ∧ ∃ line line',
      s'.queue = s.queue ++ [⟨.blockEnd, line⟩, ⟨.streamEnd, line'⟩] := by
  obtain ⟨_, hnext, cur, rfl, index, line, h⟩ := toNextToken_after h hs.depth rfl (by simp)
  obtain ⟨cur, h, hstep⟩ := step_nil hnext h hs.depth (by simp [hs.indent])
  have hclose : closeBlocks { s with cursor := cur, keyAllowed := true } (-1) =
      { add { s with cursor := cur, keyAllowed := true } .blockEnd with
        indent := -1, indents := [] } := by
    simp [closeBlocks, closeBlocks.go, inFlow, hs.depth, hs.indent, hs.indents]
  rw [hstep, streamEnd_of_closeBlocks h.column hclose hs.candidate]
  exact ⟨_, rfl, ⟨⟨rfl, rfl, hs.depth, hs.candidate, hs.marked⟩, index, line, h⟩, rfl, cur.line,
    cur.line, by simp [add]⟩

/-- Past the end of the text it ends again. -/
theorem step_atEnd (hs : s.AtEnd) :
    Yields s.step fun s' => s'.AtEnd ∧ s'.taken = s.taken ∧ ∃ line,
      s'.queue = s.queue ++ [⟨.streamEnd, line⟩] := by
  obtain ⟨index, line, h⟩ := hs.cursor
  have h : s.cursor.At ⟨[] ++ [], index, line, 0⟩ := h
  obtain ⟨_, hnext, cur, rfl, h⟩ := toNextToken_spaces h (by simp) rfl (by simp)
  obtain ⟨cur, h, hstep⟩ := step_nil hnext h hs.idle.depth (by simp [hs.idle.indent])
  have hclose : closeBlocks { s with cursor := cur } (-1) = { s with cursor := cur } :=
    closeBlocks_of_le hs.idle.depth (by simp [hs.idle.indent])
  rw [hstep, streamEnd_of_closeBlocks h.column hclose hs.idle.candidate]
  exact ⟨_, rfl, ⟨⟨hs.idle.indent, hs.idle.indents, hs.idle.depth, hs.idle.candidate,
    hs.idle.marked⟩, index, line, h⟩, rfl, _, rfl⟩

/-! ### Tokens at hand -/

/-- The first tokens are certain, and enough of them are at hand. -/
structure IsReady (s : Scanner) : Prop where
  length : ready ≤ s.queue.length
  firstIsOpen : s.firstIsOpen = .ok false

theorem Idle.firstIsOpen {indent : Int} {indents : List Int} (hs : s.Idle indent indents) :
    s.firstIsOpen = .ok false := by
  rw [Scanner.firstIsOpen, hs.marked]
  rfl

theorem Pending.firstIsOpen {indent : Int} {indents : List Int} (hs : s.Pending indent indents rest)
    (hnumber : s.taken < s.candidate.number) : s.firstIsOpen = .ok false := by
  have hne : (s.taken == s.candidate.number) = false := by
    simp
    omega
  rw [Scanner.firstIsOpen, hs.marked, List.lookup_cons, hne]
  rfl

theorem fillFrom_of_isReady (h : s.IsReady) (fuel : Nat) : fillFrom fuel s = .ok s := by
  cases fuel with
  | zero => rfl
  | succ fuel =>
    have hlength : ¬s.queue.length < ready := Nat.not_lt.2 h.length
    rw [fillFrom, h.firstIsOpen]
    simp only [ok_bind, hlength]
    rfl

theorem fillFrom_step {fuel : Nat} {P Q : Scanner → Prop} (hlength : s.queue.length < ready)
    (hopen : s.firstIsOpen = .ok false) (hstep : Yields s.step P)
    (hfill : ∀ s', P s' → Yields (fillFrom fuel s') Q) : Yields (fillFrom (fuel + 1) s) Q := by
  rw [fillFrom, hopen]
  simp only [ok_bind, hlength, decide_true, Bool.true_or, if_true]
  exact hstep.bind hfill

/-- One step brings enough tokens. -/
theorem fill_step {P : Scanner → Prop} (hlength : s.queue.length < ready)
    (hopen : s.firstIsOpen = .ok false) (hstep : Yields s.step P)
    (hready : ∀ s', P s' → s'.IsReady) : Yields s.fill P := by
  refine fillFrom_step hlength hopen hstep fun s' hs' => ?_
  exact ⟨s', fillFrom_of_isReady (hready s' hs') _, hs'⟩

theorem fill_fails (hlength : s.queue.length < ready) (hopen : s.firstIsOpen = .ok false)
    (hstep : Fails s.step) : Fails s.fill := by
  rw [fill, fillFrom, hopen]
  simp only [ok_bind, hlength, decide_true, Bool.true_or, if_true]
  exact hstep.bind

/-! ### Taking tokens -/

theorem Idle.take {indent : Int} {indents : List Int} (hs : s.Idle indent indents) :
    s.take.Idle indent indents :=
  ⟨hs.indent, hs.indents, hs.depth, hs.candidate, by simp [Scanner.take, hs.marked]⟩

theorem AtValue.take {indents : List Int} (hs : s.AtValue indents rest) :
    s.take.AtValue indents rest :=
  ⟨hs.idle.take, hs.keyAllowed, hs.cursor⟩

theorem AtEnd.take (hs : s.AtEnd) : s.take.AtEnd := ⟨hs.idle.take, hs.cursor⟩

theorem Pending.take {indent : Int} {indents : List Int} (hs : s.Pending indent indents rest)
    (hnumber : s.taken < s.candidate.number) : s.take.Pending indent indents rest :=
  { hs with marked := by simp [Scanner.take, hs.marked, hnumber] }

end Scriptlet.Yaml.Scanner
