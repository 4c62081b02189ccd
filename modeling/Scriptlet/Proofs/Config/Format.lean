import Mathlib.Data.List.Nodup
import Scriptlet.Config.Format
import Scriptlet.Proofs.Yaml.Node
import Scriptlet.Proofs.Yaml.Scalar

/-! A configuration that is written and read again. Each entry that is written is read as what comes
back of the value that its field has, and the entries are set one after another in the defaults.
Nothing is written for a field that is empty, false or zero, so such a field is read as its default.
If nothing comes back of one entry, then nothing comes back of the configuration. -/

namespace Scriptlet.Config

open Yaml

/-! ### Fields -/

theorem ofName?_name (f : Field) : Field.ofName? f.name = some f := by
  cases f <;> rfl

theorem name_injective {f g : Field} (h : f.name = g.name) : f = g := by
  have hf := ofName?_name f
  rw [h, ofName?_name g] at hf
  exact (Option.some.inj hf).symm

theorem mem_all (f : Field) : f ∈ Field.all := by
  cases f <;> decide

theorem eq_of_get {c c' : Config} (h : ∀ f, c.get f = c'.get f) : c = c' := by
  obtain ⟨⟩ := c
  obtain ⟨⟩ := c'
  have hdb := h .db
  have hmemory := h .memory
  have hdepth := h .maxDepth
  have hloop := h .loopLimit
  have hprelude := h .noPrelude
  have hverbose := h .verbose
  have hhistory := h .history
  have hignore := h .ignore
  simp_all [get]

theorem get_set (c c' : Config) (f g : Field) :
    (c.set f (c'.get f)).get g = if f = g then c'.get g else c.get g := by
  cases f <;> cases g <;> rfl

/-- The fields that are written. -/
def written (c : Config) : List Field := Field.all.filter fun f => !(c.get f).isZero

theorem entries_eq (c : Config) : c.entries = c.written.map fun f => (f, c.get f) := by
  rw [entries, written, List.filter_map]
  rfl

theorem mem_written {c : Config} {f : Field} : f ∈ c.written ↔ (c.get f).isZero = false := by
  simp [written, mem_all]

theorem nodup_written (c : Config) : c.written.Nodup :=
  List.Nodup.filter _ (by decide : Field.all.Nodup)

/-- The given fields are set, the others are as before. -/
theorem get_foldl_set (fs : List Field) (c base : Config) (g : Field) :
    (fs.foldl (fun x f => x.set f (c.get f)) base).get g =
      if g ∈ fs then c.get g else base.get g := by
  induction fs generalizing base with
  | nil => simp
  | cons f fs ih =>
    rw [List.foldl_cons, ih, get_set]
    by_cases hmem : g ∈ fs
    · simp [hmem]
    · by_cases hg : f = g
      · simp [hg]
      · simp [hmem, hg, Ne.symm hg]

/-! ### What comes back -/

/-- What comes back of an entry that is written. -/
def Entry.readBack? : Entry → Option Entry
  | text t => (Yaml.readBack? t).map text
  | bool b => some (bool b)
  | int n => some (int n)

/-- The configuration that comes back, if one does. Where it was empty or zero there are the
defaults. -/
def readBack? (c : Config) : Option Config := do
  let db ← Yaml.readBack? c.db
  let history ← Yaml.readBack? c.history
  let ignore ← Yaml.readBack? c.ignore
  return { c with
    db := if c.db = [] then default.db else db
    maxDepth := if c.maxDepth = 0 then default.maxDepth else c.maxDepth
    history
    ignore := if c.ignore = [] then default.ignore else ignore }

theorem readBack?_nil : Yaml.readBack? [] = some [] := by
  decide

theorem isZero_of_readBack?_none {e : Entry} (h : e.readBack? = none) : e.isZero = false := by
  cases e with
  | text t =>
    cases t with
    | nil => cases h
    | cons => rfl
  | bool | int => cases h

theorem exists_of_readBack?_none {c : Config} (h : c.readBack? = none) :
    ∃ f ∈ c.written, (c.get f).readBack? = none := by
  suffices h : ∃ f, (c.get f).readBack? = none by
    obtain ⟨f, hf⟩ := h
    exact ⟨f, mem_written.2 (isZero_of_readBack?_none hf), hf⟩
  cases hdb : Yaml.readBack? c.db with
  | none => exact ⟨.db, by simp [get, Entry.readBack?, hdb]⟩
  | some db =>
    cases hhistory : Yaml.readBack? c.history with
    | none => exact ⟨.history, by simp [get, Entry.readBack?, hhistory]⟩
    | some history =>
      cases hignore : Yaml.readBack? c.ignore with
      | none => exact ⟨.ignore, by simp [get, Entry.readBack?, hignore]⟩
      | some ignore => simp [readBack?, hdb, hhistory, hignore] at h

/-- Each field comes back as its entry does, or as its default. -/
theorem get_of_readBack? {c r : Config} (h : c.readBack? = some r) (f : Field) :
    (if (c.get f).isZero then some (default.get f) else (c.get f).readBack?) = some (r.get f) := by
  simp only [readBack?, Option.bind_eq_bind, Option.bind_eq_some_iff] at h
  obtain ⟨db, hdb, history, hhistory, ignore, hignore, h⟩ := h
  obtain rfl := Option.some.inj h
  cases f with
  | db => by_cases h : c.db = [] <;> simp [get, Entry.isZero, Entry.readBack?, h, hdb]
  | memory =>
    cases h : c.memory <;> simp [get, Entry.isZero, Entry.readBack?, h]
    rfl
  | maxDepth => by_cases h : c.maxDepth = 0 <;> simp [get, Entry.isZero, Entry.readBack?, h]
  | loopLimit =>
    by_cases h : c.loopLimit = 0 <;> simp [get, Entry.isZero, Entry.readBack?, h]
    rfl
  | noPrelude =>
    cases h : c.noPrelude <;> simp [get, Entry.isZero, Entry.readBack?, h]
    rfl
  | verbose =>
    cases h : c.verbose <;> simp [get, Entry.isZero, Entry.readBack?, h]
    rfl
  | history =>
    by_cases hempty : c.history = []
    · rw [hempty, readBack?_nil] at hhistory
      obtain rfl := Option.some.inj hhistory
      simp [get, Entry.isZero, hempty]
      rfl
    · simp [get, Entry.isZero, Entry.readBack?, hempty, hhistory]
  | ignore => by_cases h : c.ignore = [] <;> simp [get, Entry.isZero, Entry.readBack?, h, hignore]

theorem foldl_set_written {c r : Config} (h : c.readBack? = some r) :
    c.written.foldl (fun x f => x.set f (r.get f)) default = r := by
  refine eq_of_get fun f => ?_
  have hf := get_of_readBack? h f
  rw [get_foldl_set]
  cases hzero : (c.get f).isZero with
  | false => simp [mem_written, hzero]
  | true =>
    rw [if_neg (by simp [mem_written, hzero])]
    rw [hzero, if_pos rfl] at hf
    exact Option.some.inj hf

theorem readBack?_of_mem_written {c r : Config} {f : Field} (h : c.readBack? = some r)
    (hf : f ∈ c.written) : (c.get f).readBack? = some (r.get f) := by
  have hget := get_of_readBack? h f
  rwa [mem_written.1 hf, if_neg (by decide)] at hget

/-! ### Values -/

/-- Letters, digits and underscores, of which a plain scalar of one word can be made. -/
def isWordChar (c : Char) : Bool := c.isAlphanum || c == '_'

theorem isClean_of_isWordChar {c : Char} (h : isWordChar c = true) : isClean c = true := by
  have hrange : 48 ≤ c.toNat ∧ c.toNat ≤ 122 := by
    simp only [isWordChar, Char.isAlphanum, Char.isAlpha, Char.isUpper, Char.isLower, Char.isDigit,
      Bool.or_eq_true, Bool.and_eq_true, decide_eq_true_eq, UInt32.le_iff_toNat_le, ge_iff_le,
      beq_iff_eq] at h
    rcases h with ((⟨h₁, h₂⟩ | ⟨h₁, h₂⟩) | ⟨h₁, h₂⟩) | rfl
    · exact ⟨Nat.le_trans (by decide) h₁, Nat.le_trans h₂ (by decide)⟩
    · exact ⟨Nat.le_trans (by decide) h₁, Nat.le_trans h₂ (by decide)⟩
    · exact ⟨Nat.le_trans (by decide) h₁, Nat.le_trans h₂ (by decide)⟩
    · decide
  refine isClean_of_isPrintable (.inr ?_)
  simp only [isPrintable, Bool.or_eq_true, Bool.and_eq_true, decide_eq_true_eq, beq_iff_eq]
  omega

/-- The characters that end a plain scalar or cannot begin it. -/
def wordMarks : List Char :=
  [' ', '\t', '\r', '\n', '\u0085', '\u2028', '\u2029', '?', ':', '-'] ++ indicators

theorem ne_of_isWordChar {c d : Char} (h : isWordChar c = true) (hd : d ∈ wordMarks) : c ≠ d := by
  rintro rfl
  have hmarks : wordMarks.all (fun c => !isWordChar c) = true := by decide
  have hnot := List.all_eq_true.1 hmarks c hd
  rw [h] at hnot
  cases hnot

theorem isWord_of_all {u : Text} (hne : u ≠ []) (h : u.all isWordChar = true) : IsWord u := by
  have hmem (c : Char) (hc : c ∈ u) (d : Char) (hd : d ∈ wordMarks) : c ≠ d :=
    ne_of_isWordChar (List.all_eq_true.1 h c hc) hd
  refine ⟨hne, fun c hc => ⟨?_, ?_⟩, fun hhead => ?_, fun hlast => ?_⟩
  · simp [isSpace, hmem c hc ' ' (by decide), hmem c hc '\t' (by decide)]
  · simp [isBreak, hmem c hc '\n' (by decide), hmem c hc '\r' (by decide),
      hmem c hc '\u0085' (by decide), hmem c hc '\u2028' (by decide),
      hmem c hc '\u2029' (by decide)]
  · exact hmem '#' (List.mem_of_head? hhead) '#' (by decide) rfl
  · exact hmem ':' (List.mem_of_getLast? hlast) ':' (by decide) rfl

theorem value_of_all {u : Text} (hne : u ≠ []) (h : u.all isWordChar = true) :
    Yaml.Value u u false := by
  refine .plain (.last (isWord_of_all hne h)) ?_
  obtain ⟨c, t, rfl⟩ := List.exists_cons_of_ne_nil hne
  have hc : isWordChar c = true := List.all_eq_true.1 h c List.mem_cons_self
  refine ⟨c, t, rfl, ?_, fun hmark => ?_⟩
  · rw [List.contains_eq_mem, decide_eq_false_iff_not]
    intro hmem
    exact ne_of_isWordChar hc (List.mem_append_right _ hmem) rfl
  · have hmem : c ∈ ['?', ':', '-'] := List.contains_iff_mem.1 hmark
    have hmem : c ∈ wordMarks := List.mem_append_left _ (List.mem_of_mem_drop (i := 7) hmem)
    exact absurd rfl (ne_of_isWordChar hc hmem)

theorem isKey_name (f : Field) : Scanner.IsKey f.name := by
  refine ⟨isWord_of_all ?_ ?_, ?_, ?_⟩ <;> cases f <;> decide

/-! ### Reading scalars -/

section Scalars

variable {doc : Document} {line : Nat}

theorem readScalar_of_scalarOf {α : Type} {target : String} {read : Text → Scalar → Option α}
    {tag text t : Text} {s : Scalar} {a : α} (hs : scalarOf tag text = .ok (s, t))
    (hne : s ≠ .null) (hread : read t s = some a) :
    readScalar target read doc (.scalar line tag text) = .ok (.found a) := by
  rw [readScalar]
  show (scalarOf tag text >>= fun r => _) = _
  rw [hs, ok_bind]
  cases s with
  | null => exact absurd rfl hne
  | bool | int | float | timestamp | text =>
    simp only [hread]
    rfl

theorem scalarOf_text {t : Text} {quoted : Bool} (h : quoted = false → Scalar.ofPlain t = .text) :
    scalarOf (Node.scalarTag quoted t) t = .ok (.text, t) := by
  have htag : Node.scalarTag quoted t = Scalar.text.tag ∨
      Node.scalarTag quoted t = Scalar.mergeTag := by
    rw [Node.scalarTag]
    split
    · exact .inl rfl
    · next hquoted =>
      split
      · exact .inr rfl
      · exact .inl (by rw [h (by simpa using hquoted)])
  rcases htag with htag | htag <;> rw [htag] <;> rfl

theorem scalarOf_true : scalarOf (Node.scalarTag false "true".toList) "true".toList =
    .ok (.bool true, "true".toList) := by
  rfl

theorem scalarOf_ofNat {n : Nat} (hpos : 0 < n) (hlt : n < Nat.pow 2 63) :
    scalarOf (Node.scalarTag false (Text.ofNat n)) (Text.ofNat n) =
      .ok (.int n, Text.ofNat n) := by
  have hne : Text.ofNat n ≠ ['<', '<'] := by
    intro h
    cases Store.isDigit_of_mem_ofNat (h ▸ List.mem_cons_self : '<' ∈ Text.ofNat n)
  have htag : Node.scalarTag false (Text.ofNat n) = (Scalar.int 0).tag := by
    rw [Node.scalarTag, if_neg (by decide), if_neg hne, Scalar.ofPlain,
      Scalar.ofPlainWith_ofNat hpos hlt]
    rfl
  have htagged : Scalar.ofTagged (Scalar.int 0).tag (Text.ofNat n) = .ok (.int n) := by
    rw [Scalar.ofTagged, if_neg (by decide)]
    simp only [Scalar.ofPlainWith_ofNat hpos hlt]
    exact if_pos rfl
  rw [htag, scalarOf, if_neg (by decide), htagged]

end Scalars

/-! ### Entries as they are written -/

/-- A number that fits into 63 bits, as limits are. -/
def isLimit (n : Int) : Bool := 0 ≤ n && n < (Nat.pow 2 63 : Nat)

/-- The item is an entry as it is written, and is read as what comes back of the entry. -/
structure Represents (f : Field) (e : Entry) (i : Node.Item) : Prop where
  name : i.name = f.name
  written : i.written = e.render
  clean : ∀ c ∈ i.written, isClean c = true
  refused : e.readBack? = none → i.IsRefused
  sound : ∀ e', e.readBack? = some e' → i.IsSound ∧ ∀ doc line,
    readEntry doc f (.scalar line (Node.scalarTag i.quoted i.text) i.text) = .ok (.found e')

/-- What is written as one plain word is represented if its scalar is read. -/
theorem represents_word {f : Field} {e : Entry} (hback : e.readBack? = some e)
    (hne : e.render ≠ []) (hall : e.render.all isWordChar = true)
    (hread : ∀ doc line,
      readEntry doc f (.scalar line (Node.scalarTag false e.render) e.render) = .ok (.found e)) :
    Represents f e ⟨f.name, e.render, e.render, false⟩ where
  name := rfl
  written := rfl
  clean c hc := isClean_of_isWordChar (List.all_eq_true.1 hall c hc)
  refused hnone := by
    rw [hback] at hnone
    cases hnone
  sound e' he' := by
    obtain rfl : e = e' := Option.some.inj (hback.symm.trans he')
    exact ⟨⟨isKey_name f, value_of_all hne hall⟩, hread⟩

/-- All configurations have entries of the same types. -/
theorem readEntry_eq_readLike (c : Config) (f : Field) (doc : Document) (node : Node) :
    readEntry doc f node = readLike doc (c.get f) node := by
  cases f <;> rfl

theorem readText_text {t : Text} {quoted : Bool} (h : quoted = false → Scalar.ofPlain t = .text)
    (doc : Document) (line : Nat) :
    readText doc (.scalar line (Node.scalarTag quoted t) t) = .ok (.found t) :=
  readScalar_of_scalarOf (scalarOf_text h) (by simp) rfl

theorem exists_represents_text {c : Config} {f : Field} {t : Text} (h : c.get f = .text t) :
    ∃ i, Represents f (.text t) i := by
  cases hread : Yaml.readBack? t with
  | none =>
    refine ⟨⟨f.name, Yaml.render t, [], false⟩, rfl, rfl, fun _ => isClean_of_mem_render,
      fun _ => ⟨isKey_name f, render_of_readBack?_none hread⟩, fun e' he' => ?_⟩
    rw [Entry.readBack?, hread] at he'
    cases he'
  | some u =>
    obtain ⟨quoted, hvalue, htext⟩ := value_render hread
    refine ⟨⟨f.name, Yaml.render t, u, quoted⟩, rfl, rfl, fun _ => isClean_of_mem_render,
      fun hnone => ?_, fun e' he' => ⟨⟨isKey_name f, hvalue⟩, fun doc line => ?_⟩⟩
    · rw [Entry.readBack?, hread] at hnone
      cases hnone
    · rw [Entry.readBack?, hread] at he'
      obtain rfl := Option.some.inj he'
      rw [readEntry_eq_readLike c, h, readLike, readText_text htext]
      rfl

/-- The numbers of a configuration are limits. -/
structure HasLimits (c : Config) : Prop where
  maxDepth : isLimit c.maxDepth = true
  loopLimit : isLimit c.loopLimit = true

theorem HasLimits.get {c : Config} {f : Field} {n : Int} (hc : c.HasLimits)
    (h : c.get f = .int n) : isLimit n = true := by
  cases f with
  | maxDepth => exact Entry.int.inj h ▸ hc.maxDepth
  | loopLimit => exact Entry.int.inj h ▸ hc.loopLimit
  | db | memory | noPrelude | verbose | history | ignore => cases h

/-- Each entry that is written is written as an item. -/
theorem exists_represents {c : Config} {f : Field} (hc : c.HasLimits) (hf : f ∈ c.written) :
    ∃ i, Represents f (c.get f) i := by
  have hzero := mem_written.1 hf
  cases h : c.get f with
  | text t => exact exists_represents_text h
  | bool b =>
    rw [h] at hzero
    obtain rfl : b = true := by simpa [Entry.isZero] using hzero
    refine ⟨_, represents_word rfl (by decide) (by decide) fun doc line => ?_⟩
    rw [readEntry_eq_readLike c, h, readLike]
    have hread : readBool doc (.scalar line (Node.scalarTag false "true".toList) "true".toList) =
        .ok (.found true) := readScalar_of_scalarOf scalarOf_true (by simp) rfl
    exact hread ▸ rfl
  | int n =>
    have hlimit := hc.get h
    rw [h] at hzero
    simp only [isLimit, Bool.and_eq_true, decide_eq_true_eq] at hlimit
    simp only [Entry.isZero, beq_eq_false_iff_ne] at hzero
    obtain ⟨n, rfl⟩ := Int.eq_ofNat_of_zero_le hlimit.1
    have hpos : 0 < n := by omega
    have hlt : n < Nat.pow 2 63 := by omega
    have hall : (Text.ofNat n).all isWordChar = true := List.all_eq_true.2 fun c hc => by
      simp [isWordChar, Char.isAlphanum, Store.isDigit_of_mem_ofNat hc]
    refine ⟨_, represents_word rfl (Store.ofNat_ne_nil n) hall fun doc line => ?_⟩
    rw [readEntry_eq_readLike c, h, readLike]
    have hint : (Scalar.int n).toInt? = some (n : Int) := by
      rw [Scalar.toInt?, if_pos hlimit.2]
    have hread : readInt doc (.scalar line (Node.scalarTag false (Text.ofNat n)) (Text.ofNat n)) =
        .ok (.found n) := readScalar_of_scalarOf (scalarOf_ofNat hpos hlt) (by simp) hint
    exact hread ▸ rfl

/-! ### Mappings -/

/-- An entry of a tree is read as the entry of a field. -/
structure Reads (f : Field) (e : Entry) (pair : Node × Node) : Prop where
  key : ∃ line, pair.1 = .scalar line (Node.scalarTag false f.name) f.name
  scalar : ∃ line tag text, pair.2 = .scalar line tag text
  read : ∀ doc, readEntry doc f pair.2 = .ok (.found e)

theorem Represents.reads {f : Field} {e e' : Entry} {i : Node.Item} {pair : Node × Node}
    (h : Represents f e i) (he : e.readBack? = some e') (hpair : i.IsReadAs pair) :
    Reads f e' pair := by
  obtain ⟨line, line', rfl⟩ := hpair
  rw [h.name]
  exact ⟨⟨line, rfl⟩, ⟨line', _, _, rfl⟩, fun doc => (h.sound e' he).2 doc line'⟩

theorem ofPlain_name (f : Field) : Scalar.ofPlain f.name = .text := by
  cases f <;> rfl

theorem sameKey_of_ne {f g : Field} (hne : f ≠ g) (line line' : Nat) (tag tag' : Text) :
    sameKey (.scalar line tag f.name) (.scalar line' tag' g.name) = false := by
  simpa [sameKey] using fun h => hne (name_injective h)

section Fields

variable {fs : List Field} {r : Config} {pairs : List (Node × Node)}

theorem filter_sameKey {f : Field} (line : Nat)
    (h : List.Forall₂ (fun f => Reads f (r.get f)) fs pairs) (hf : f ∉ fs) :
    (pairs.filter fun other =>
      sameKey (.scalar line (Node.scalarTag false f.name) f.name) other.1) = [] := by
  induction h with
  | nil => rfl
  | @cons g pair fs pairs hg _ ih =>
    obtain ⟨line', hkey⟩ := hg.key
    simp only [List.mem_cons, not_or] at hf
    rw [List.filter_cons_of_neg (by simp [hkey, sameKey_of_ne hf.1]), ih hf.2]

theorem repeatedKeys_of_nodup (h : List.Forall₂ (fun f => Reads f (r.get f)) fs pairs)
    (hnodup : fs.Nodup) : repeatedKeys pairs = [] := by
  induction h with
  | nil => rfl
  | @cons f pair fs pairs hf hfs ih =>
    obtain ⟨line, hkey⟩ := hf.key
    rw [List.nodup_cons] at hnodup
    obtain ⟨key, value⟩ := pair
    obtain rfl : key = _ := hkey
    rw [repeatedKeys, filter_sameKey line hfs hnodup.1, ih hnodup.2]
    rfl

/-- Nothing was read by way of an alias, and nothing is being merged. -/
structure IsDirect (p : Progress) : Prop where
  viaAlias : p.viaAlias = false
  settled : p.settled = none
  aliased : p.draft.aliased = 0

theorem Draft.visit_scalar {d : Draft} (h : d.aliased = 0) (line : Nat) (tag text : Text) :
    d.visit false (.scalar line tag text) = .ok { d with nodes := d.nodes + 1 } := by
  have hcount : d.count false = .ok { d with nodes := d.nodes + 1 } := by
    rw [count, if_neg]
    · rfl
    · simp [isExcessive, h]
  rw [visit, hcount]
  rfl

/-- One entry sets its field. -/
theorem readPair_reads {doc : Document} {p : Progress} {f : Field} {e : Entry} {pair : Node × Node}
    (h : Reads f e pair) (hp : IsDirect p) (hgiven : f ∉ p.given) :
    readPair doc p pair = .ok { p with
      given := f :: p.given
      draft := { p.draft with config := p.draft.config.set f e, nodes := p.draft.nodes + 2 } } := by
  obtain ⟨key, value⟩ := pair
  obtain ⟨line, rfl⟩ : ∃ line, key = _ := h.key
  obtain ⟨line', tag, text, rfl⟩ : ∃ line tag text, value = _ := h.scalar
  have hmerge : isMergeKey (.scalar line (Node.scalarTag false f.name) f.name) = false := by
    cases f <;> rfl
  have hcontains : p.given.contains f = false := by simpa using hgiven
  let d : Draft := { p.draft with nodes := p.draft.nodes + 1 }
  have hvisit : d.visit false (.scalar line' tag text) = .ok { d with nodes := d.nodes + 1 } :=
    Draft.visit_scalar (d := d) hp.aliased line' tag text
  rw [readPair]
  simp only [hmerge, Bool.false_eq_true, if_false, hp.viaAlias]
  show (p.draft.visit false _ >>= fun d => _) = _
  rw [Draft.visit_scalar hp.aliased, ok_bind]
  show (readText doc _ >>= fun r => _) = _
  rw [readText_text fun _ => ofPlain_name f, ok_bind]
  simp only [hp.settled, Option.any_none, Bool.false_eq_true, if_false, ofName?_name, hcontains,
    Option.map_none]
  show (d.visit false _ >>= fun d => _) = _
  rw [hvisit, ok_bind]
  show (readEntry doc f _ >>= fun r => _) = _
  rw [h.read, ok_bind, ← hp.settled, ← hp.viaAlias]
  rfl

/-- The entries set their fields one after another. -/
theorem foldlM_readPair {doc : Document} {p : Progress}
    (h : List.Forall₂ (fun f => Reads f (r.get f)) fs pairs) (hp : IsDirect p) (hnodup : fs.Nodup)
    (hgiven : ∀ f ∈ fs, f ∉ p.given) :
    Yields (pairs.foldlM (readPair doc) p) fun p' => p'.merge = p.merge ∧
      p'.draft.mistakes = p.draft.mistakes ∧
        p'.draft.config = fs.foldl (fun x f => x.set f (r.get f)) p.draft.config := by
  induction h generalizing p with
  | nil => exact ⟨p, rfl, rfl, rfl, rfl⟩
  | @cons f pair fs pairs hf _ ih =>
    rw [List.nodup_cons] at hnodup
    rw [List.foldlM_cons, readPair_reads hf hp (hgiven f List.mem_cons_self), ok_bind]
    refine ih ⟨hp.viaAlias, hp.settled, hp.aliased⟩ hnodup.2 fun g hg => ?_
    rw [List.mem_cons, not_or]
    refine ⟨?_, hgiven g (List.mem_cons_of_mem _ hg)⟩
    rintro rfl
    exact hnodup.1 hg

theorem ofDocument_mapping {doc : Document} {line fuel : Nat} {tag : Text}
    (hroot : doc.root = .mapping line tag pairs)
    (hpairs : List.Forall₂ (fun f => Reads f (r.get f)) fs pairs) (hnodup : fs.Nodup) :
    Yields (ofDocument (fuel + 1) doc) fun d => d.mistakes = [] ∧
      d.config = fs.foldl (fun x f => x.set f (r.get f)) default := by
  let start : Progress := { draft := { nodes := 2 }, viaAlias := false, settled := none }
  obtain ⟨p, hfold, hmerge, hmistakes, hconfig⟩ :
      Yields (pairs.foldlM (readPair doc) start) _ :=
    foldlM_readPair hpairs ⟨rfl, rfl, rfl⟩ hnodup (by simp [start])
  have hmapping : readMapping doc (fuel + 1) [] none pairs { nodes := 2 } =
      .ok (p.draft, p.settled) := by
    rw [readMapping, repeatedKeys_of_nodup hpairs hnodup]
    show (pairs.foldlM (readPair doc) start >>= fun p => _) = _
    rw [hfold, ok_bind]
    simp only [hmerge]
    rfl
  rw [ofDocument]
  simp only [hroot, hmapping]
  exact ⟨_, rfl, hmistakes, hconfig⟩

end Fields

/-! ### Configurations -/

section Items

variable {f : Field} {e : Entry} {i : Node.Item}

theorem Represents.isSound_or_isRefused (h : Represents f e i) : i.IsSound ∨ i.IsRefused := by
  cases he : e.readBack? with
  | none => exact .inr (h.refused he)
  | some e' => exact .inl (h.sound e' he).1

theorem Represents.renderEntry_eq (h : Represents f e i) :
    renderEntry f.name e.render = i.name ++ ':' :: ' ' :: (i.written ++ lineEnd i.written) := by
  have hshaped : i.IsShaped := h.isSound_or_isRefused.elim (·.isShaped) (·.isShaped)
  obtain ⟨c, t, hcons, -⟩ := hshaped.value
  rw [← h.name, ← h.written, Yaml.renderEntry_eq _ (by simp [hcons])]

theorem Represents.isClean_of_mem {c : Char} (h : Represents f e i)
    (hc : c ∈ i.name ++ ':' :: ' ' :: (i.written ++ lineEnd i.written)) : isClean c = true := by
  have hname : i.name.all isClean = true := by
    rw [h.name]
    cases f <;> decide
  have hend : (lineEnd i.written).all isClean = true := by
    rw [lineEnd]
    split <;> decide
  simp only [List.mem_append, List.mem_cons] at hc
  rcases hc with hc | rfl | rfl | hc | hc
  · exact List.all_eq_true.1 hname c hc
  · decide
  · decide
  · exact h.clean c hc
  · exact List.all_eq_true.1 hend c hc

end Items

section Configurations

variable {c : Config}

/-- The text of a configuration is that of its items. -/
theorem exists_items (hc : c.HasLimits) (hne : c.written ≠ []) :
    ∃ item : Field → Node.Item, (∀ f ∈ c.written, Represents f (c.get f) (item f)) ∧
      c.render = Node.Item.renderAll (c.written.map item) ∧
        ∀ d ∈ Node.Item.renderAll (c.written.map item), isClean d = true := by
  have hnonempty : Nonempty Node.Item := ⟨⟨[], [], [], false⟩⟩
  have hitems : ∀ f ∈ c.written, ∃ i, Represents f (c.get f) i := fun f => exists_represents hc
  choose! item hitem using hitems
  refine ⟨item, hitem, ?_, fun d hd => ?_⟩
  · rw [render, entries_eq, if_neg (by simpa using hne), Node.Item.renderAll, List.flatMap_map,
      List.flatMap_map]
    exact List.flatMap_congr fun f hf => (hitem f hf).renderEntry_eq
  · obtain ⟨i, hi, hd⟩ := List.mem_flatMap.1 hd
    obtain ⟨f, hf, rfl⟩ := List.mem_map.1 hi
    exact (hitem f hf).isClean_of_mem hd

/-- The text of a configuration that comes back is a mapping in which each entry is read. -/
theorem exists_document {r : Config} (hc : c.HasLimits) (hne : c.written ≠ [])
    (h : c.readBack? = some r) :
    ∃ doc line tag pairs, Document.ofText? c.render = .ok (some doc) ∧
      doc.root = .mapping line tag pairs ∧
        List.Forall₂ (fun f => Reads f (r.get f)) c.written pairs := by
  obtain ⟨item, hitem, hrender, hclean⟩ := exists_items hc hne
  have hsound : ∀ i ∈ c.written.map item, i.IsSound := by
    intro i hi
    obtain ⟨f, hf, rfl⟩ := List.mem_map.1 hi
    exact ((hitem f hf).sound _ (readBack?_of_mem_written h hf)).1
  obtain ⟨doc, line, tag, pairs, hdoc, hroot, hpairs⟩ :=
    Node.ofText?_renderAll (by simpa using hne) hsound hclean
  refine ⟨doc, line, tag, pairs, by rw [hrender, hdoc], hroot, ?_⟩
  have hboth := (List.forall₂_and_left _ _).2
    ⟨fun f hf => And.intro hf (hitem f hf), List.forall₂_map_left_iff.1 hpairs⟩
  exact hboth.imp fun f pair h' => h'.1.2.reads (readBack?_of_mem_written h h'.1.1) h'.2

/-- The text of a configuration that does not come back is no document. -/
theorem ofText?_fails (hc : c.HasLimits) (h : c.readBack? = none) :
    Fails (Document.ofText? c.render) := by
  obtain ⟨f, hf, hnone⟩ := exists_of_readBack?_none h
  obtain ⟨item, hitem, hrender, hclean⟩ := exists_items hc (List.ne_nil_of_mem hf)
  rw [hrender]
  refine Node.ofText?_fails (fun i hi => ?_)
    ⟨item f, List.mem_map_of_mem hf, (hitem f hf).refused hnone⟩ hclean
  obtain ⟨g, hg, rfl⟩ := List.mem_map.1 hi
  exact (hitem g hg).isSound_or_isRefused

theorem ofText_empty : (ofText ['\x7b', '\x7d', '\n']).toOption = some default := by
  decide +kernel

theorem HasLimits.readBack? {r : Config} (hc : c.HasLimits) (h : c.readBack? = some r) :
    ¬r.maxDepth < 0 ∧ ¬r.loopLimit < 0 := by
  have hdepth := hc.maxDepth
  have hloop := hc.loopLimit
  have hdefault : ¬default.maxDepth < 0 := by decide
  simp only [isLimit, Bool.and_eq_true, decide_eq_true_eq] at hdepth hloop
  simp only [Config.readBack?, Option.bind_eq_bind, Option.bind_eq_some_iff] at h
  obtain ⟨db, -, history, -, ignore, -, h⟩ := h
  obtain rfl := Option.some.inj h
  dsimp only
  constructor
  · split <;> omega
  · omega

/-- What is read from the text of a configuration is what comes back of it. -/
theorem toOption_ofText_render (hc : c.HasLimits) : (ofText c.render).toOption = c.readBack? := by
  cases h : c.readBack? with
  | none =>
    obtain ⟨fault, hfault⟩ := ofText?_fails hc h
    rw [ofText, hfault]
    rfl
  | some r =>
    have hfold := foldl_set_written h
    by_cases hne : c.written = []
    · rw [hne] at hfold
      rw [render, entries_eq, hne]
      exact ofText_empty.trans (congrArg some hfold)
    · obtain ⟨doc, line, tag, pairs, hdoc, hroot, hpairs⟩ := exists_document hc hne h
      obtain ⟨fuel, hfuel⟩ : ∃ fuel, (c.render.length + 2) * (c.render.length + 2) = fuel + 1 :=
        Nat.exists_eq_add_one_of_ne_zero (by simp)
      obtain ⟨d, hread, hmistakes, hconfig⟩ : Yields (ofDocument (fuel + 1) doc) _ :=
        ofDocument_mapping hroot hpairs c.nodup_written
      rw [hfold] at hconfig
      obtain ⟨hdepth, hloop⟩ := hc.readBack? h
      rw [← hconfig] at hdepth hloop
      rw [ofText, hdoc, ← hconfig]
      simp only [hfuel, hread, ok_bind, hmistakes, hdepth, hloop]
      rfl

end Configurations

end Scriptlet.Config
