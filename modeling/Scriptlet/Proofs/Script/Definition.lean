import Scriptlet.Proofs.Command.Bytes
import Scriptlet.Proofs.Command.Join
import Scriptlet.Proofs.Expression.Evaluation
import Scriptlet.Proofs.Script.Source

/-! Definitions. A definition in a script is expanded to a call of `def`, which is the source form
of the function that evaluating it makes: so what a script writes, what a function prints as and
what that print evaluates to are one and the same. The braces of the body must balance for the block
to end where it should, and its brackets of both kinds must never close more than was opened, also
in strings, for the call not to be read as an equation. A body of bytes comes through as it is
exactly if it is the form of a text. -/

namespace Scriptlet

open Command

/-! ### Texts inside brackets -/

namespace Command

/-- A text that stays inside brackets shows no operator, whatever its quotes. -/
theorem exists_pass_of_pos {depth : Int} {t : Text}
    (h : ∀ u, u <+: t → 0 < u.foldl nest depth) (inString : Bool) :
    ∃ inString', pass depth inString t = some (t.foldl nest depth, inString') := by
  induction t generalizing depth inString with
  | nil => exact ⟨inString, rfl⟩
  | cons c t ih =>
    have hpos : 0 < nest depth c := h [c] (List.cons_prefix_cons.2 ⟨rfl, List.nil_prefix⟩)
    rw [pass, if_pos (by simp [hpos])]
    exact ih (fun u hu => h (c :: u) (List.cons_prefix_cons.2 ⟨rfl, hu⟩)) _

/-! ### Names and lists of names in a script -/

theorem not_bracket_of_isNameChar {c : Char} (h : Text.isNameChar c = true) :
    c ∉ ['"', '(', ')', '\x7b', '\x7d'] :=
  Text.not_mem_of_isNameChar (by simp [Text.marks]) h

theorem plain_of_isNameChar {c : Char} (h : Text.isNameChar c = true) :
    defaultIgnore.contains c = false ∧ c ∉ ['"', ' ', '\n', '#', '\x7b', '\x7d'] := by
  have hignore : ∀ a ∈ defaultIgnore, Text.isNameChar a = false :=
    List.all_iff_forall_prop.1 (by decide)
  refine ⟨?_, Text.not_mem_of_isNameChar (by simp [Text.marks]) h⟩
  rw [← Bool.not_eq_true, List.contains_iff_mem]
  intro hmem
  rw [hignore c hmem] at h
  cases h

theorem inline_append {ignore t : Text}
    (ht : ∀ c ∈ t, ignore.contains c = false ∧ c ∉ ['"', ' ', '\n', '#', '\x7b', '\x7d'])
    (u : Text) : inline ignore false (t ++ u) = (inline ignore false u).map (t ++ ·) := by
  induction t with
  | nil => simp
  | cons c t ih =>
    obtain ⟨hignore, hc⟩ := ht c List.mem_cons_self
    rw [List.cons_append, inline, ih fun a ha => ht a (List.mem_cons_of_mem _ ha)]
    simp_all [Function.comp_def]

/-- The space after a comma is dropped. -/
theorem inline_intercalate {ps : List Text} (h : ∀ p ∈ ps, ∀ c ∈ p, Text.isNameChar c = true) :
    inline defaultIgnore false (List.intercalate [',', ' '] ps ++ [')', ' ']) =
      some (List.intercalate [','] ps ++ [')']) := by
  have hend : inline defaultIgnore false [')', ' '] = some [')'] := by decide
  induction ps with
  | nil => simpa using hend
  | cons p ps ih =>
    have hp := fun c hc => plain_of_isNameChar (h p List.mem_cons_self c hc)
    have hps := ih fun q hq => h q (List.mem_cons_of_mem _ hq)
    cases ps with
    | nil =>
      simp only [List.intercalate_singleton]
      rw [inline_append hp, hend]
      rfl
    | cons q ps =>
      have hcomma : ∀ u, inline defaultIgnore false (',' :: ' ' :: u) =
          (inline defaultIgnore false u).map (',' :: ·) := by
        intro u
        simp [inline, defaultIgnore]
      simp only [List.intercalate_cons_cons, List.append_assoc] at hps ⊢
      rw [inline_append hp, List.cons_append, List.cons_append, List.nil_append, hcomma, hps]
      simp

theorem isArgument_of_isIdentifier {t : Text} (h : t.isIdentifier = true) : IsArgument t := by
  obtain ⟨hne, hname⟩ := Text.isNameChar_of_isIdentifier h
  have hmark : ∀ c ∈ t, c ∉ Text.marks := fun c hc => Text.not_mem_marks (hname c hc)
  refine ⟨hne, track_plain _ fun c hc => ?_, fun hcomma => hmark ',' hcomma (by simp [Text.marks])⟩
  have hplain := hmark c hc
  simp_all [Text.marks, isOpening, isClosing]

/-- The space after the keyword leaves its mark. -/
theorem Cutter.step_keyword {ignore : Text} {s : Cutter} (hmode : s.mode = .code)
    (hpending : s.pending = ['f', 'e', 'd']) (hspace : ignore.contains ' ' = false) :
    s.step ignore ' ' = s.after [' '] ['~'] .code := by
  obtain ⟨line, mode, pending, commands⟩ := s
  cases hmode
  cases hpending
  simp_all [Cutter.step, Cutter.stepCode, Cutter.push, Cutter.after]

end Command

namespace Function

/-- A definition up to its block, as it stands in a script. -/
def definitionHead (f : Function) : Text :=
  ['d', 'e', 'f'] ++ ' ' :: (f.name ++ ['('] ++
    (List.intercalate [',', ' '] f.params ++ [')', ' ']))

/-- A definition as it stands in a script. -/
def definition (f : Function) : Text := f.definitionHead ++ '\x7b' :: (f.body ++ ['\x7d'])

/-- A definition with a body of bytes. -/
def definitionBytes (f : Function) (body : List UInt8) : List UInt8 :=
  blockBytes f.definitionHead body

/-- The source form with a body of bytes. -/
def sourceBytes (f : Function) (body : List UInt8) : List UInt8 :=
  blockBytes (header f.name f.params) body

/-- What makes a function the meaning of its own definition. Brackets count wherever they stand in
the body, also in strings. -/
structure Definable (f : Function) : Prop where
  identifiers : ∀ n ∈ f.names, n.isIdentifier = true
  not_ignored : '\t' ∉ f.body ∧ '\r' ∉ f.body
  braces_eq : f.body.count '\x7d' = f.body.count '\x7b'
  braces_le : ∀ t, t <+: f.body → t.count '\x7d' ≤ t.count '\x7b'
  brackets_le : ∀ t, t <+: f.body →
    t.count ')' + t.count '\x7d' ≤ t.count '(' + t.count '\x7b'

variable {f : Function}

theorem Definable.isNameChar (h : f.Definable) {n : Text} (hn : n ∈ f.names) :
    ∀ c ∈ n, Text.isNameChar c = true :=
  (Text.isNameChar_of_isIdentifier (h.identifiers n hn)).2

theorem Definable.balanced (h : f.Definable) : braces 0 f.body = some 0 := by
  rw [braces_eq_count (by simpa using h.braces_le), h.braces_eq]
  simp

/-! ### The source form is no equation -/

theorem Definable.mem_nameList (h : f.Definable) {c : Char} (hc : c ∈ nameList f.names) :
    c ∉ ['(', ')', '\x7b', '\x7d'] := by
  have hname : ∀ n ∈ f.names, c ∈ n → c ∉ ['(', ')', '\x7b', '\x7d'] := fun n hn hcn hm =>
    not_bracket_of_isNameChar (h.isNameChar hn c hcn) (List.mem_cons_of_mem _ hm)
  rw [names, nameList_cons] at hc
  simp only [names, List.mem_cons, forall_eq_or_imp] at hname
  simp only [Text.quote, List.mem_append, List.mem_cons, List.mem_flatMap] at hc
  grind

theorem Definable.not_equation (h : f.Definable) : Equation.ofText? f.source = none := by
  have hnames : ∀ u, u <+: nameList f.names → u.foldl nest 1 = 1 := by
    intro u hu
    have hnot : ∀ a ∈ ['(', ')', '\x7b', '\x7d'], u.count a = 0 := fun a ha =>
      List.count_eq_zero.2 fun hmem => h.mem_nameList (hu.subset hmem) ha
    rw [foldl_nest_eq]
    simp [hnot]
  have hbody : ∀ u, u <+: f.body → 0 < u.foldl nest 1 := by
    intro u hu
    have hle := h.brackets_le u hu
    rw [foldl_nest_eq]
    omega
  obtain ⟨inString, hlist⟩ := exists_pass_of_pos (fun u hu => by rw [hnames u hu]; decide) false
  obtain ⟨inString', hblock⟩ := exists_pass_of_pos hbody inString
  rw [hnames _ List.prefix_rfl] at hlist
  have hhead : pass 0 false ['d', 'e', 'f', '('] = some (1, false) := by decide
  -- Between the parentheses and the block the depth is zero, but nothing stands there.
  have hbetween : pass 1 inString [')', '\x7b'] = some (1, inString) := by
    cases inString <;> decide
  have hend : ∀ depth, pass depth inString' ['\x7d'] = some (depth - 1, inString') := by
    intro depth
    simp [Command.pass, nest, startsOperator]
  have hsource : f.source = ['d', 'e', 'f', '('] ++ (nameList f.names ++
      ([')', '\x7b'] ++ (f.body ++ ['\x7d']))) := by
    simp [source_eq]
  have hpass : pass 0 false f.source = some (f.body.foldl nest 1 - 1, inString') := by
    simp only [hsource, pass_append, hhead, hlist, hbetween, hblock, hend, Option.bind_some]
  exact Equation.ofText?_of_pass hpass

theorem Definable.readable (h : f.Definable) : f.Readable where
  unquoted n hn hquote := Text.not_mem_marks (h.isNameChar hn '"' hquote) (by decide)
  named hnil := (Text.isNameChar_of_isIdentifier (h.identifiers [] hnil)).1 rfl
  balanced := h.balanced
  not_equation := h.not_equation

/-! ### Cutting the definition off -/

/-- The parameters as they are kept. -/
def joined (f : Function) : Text := List.intercalate [','] f.params

theorem Definable.isNameChar_params (h : f.Definable) :
    ∀ p ∈ f.params, ∀ c ∈ p, Text.isNameChar c = true :=
  fun _ hp => h.isNameChar (List.mem_cons_of_mem _ hp)

/-- The head is kept without its spaces, and with the mark of its keyword. -/
theorem Definable.run_definitionHead (h : f.Definable) :
    Cutter.run defaultIgnore {} f.definitionHead =
      Cutter.after {} f.definitionHead
        (['d', 'e', 'f', '~'] ++ (f.name ++ ['('] ++ (f.joined ++ [')']))) .code := by
  have hkeyword : Cutter.run defaultIgnore {} ['d', 'e', 'f'] =
      Cutter.after {} ['d', 'e', 'f'] ['d', 'e', 'f'] .code := rfl
  have hname : ∀ c ∈ f.name ++ ['('],
      defaultIgnore.contains c = false ∧ c ∉ ['"', ' ', '\n', '#', '\x7b'] := by
    intro c hc
    rcases List.mem_append.1 hc with hc | hc
    · have hplain := plain_of_isNameChar (h.isNameChar List.mem_cons_self c hc)
      simp_all
    · cases List.mem_singleton.1 hc
      decide
  rw [definitionHead, Cutter.run_append, hkeyword, Cutter.run_cons,
    Cutter.step_keyword rfl rfl (by decide), Cutter.run_append, Cutter.after_after,
    Cutter.run_plain (Cutter.inline_after_code _ _ _) hname, Cutter.after_after,
    Cutter.run_inline (Cutter.inline_after_code _ _ _) (by simp [Cutter.after])
      (inline_intercalate h.isNameChar_params), Cutter.after_after]
  simp [joined]

theorem Definable.kept_body (h : f.Definable) : kept defaultIgnore f.body = f.body := by
  refine List.filter_eq_self.2 fun c hc => ?_
  have htab : c ≠ '\t' := fun heq => h.not_ignored.1 (heq ▸ hc)
  have hreturn : c ≠ '\r' := fun heq => h.not_ignored.2 (heq ▸ hc)
  simp [defaultIgnore, htab, hreturn]

theorem Definable.split_definition (h : f.Definable) :
    split defaultIgnore f.definition = .ok [['d', 'e', 'f', '~'] ++ (f.name ++
      '(' :: (f.joined ++ ')' :: '\x7b' :: (f.body ++ ['\x7d'])))] := by
  have hbody : braces 0 (kept defaultIgnore f.body) = some 0 := by
    rw [h.kept_body, h.balanced]
  rw [split, definition, Cutter.run_braced h.run_definitionHead rfl rfl hbody, h.kept_body]
  simp [Cutter.finish, Cutter.flush]

/-! ### Expanding it -/

theorem Definable.mem_joined (h : f.Definable) {c : Char} (hc : c ∈ f.joined) :
    c ∉ ['"', '(', ')', '\x7b', '\x7d'] := by
  rcases Text.mem_intercalate hc with hcomma | ⟨p, hp, hcp⟩
  · obtain rfl := List.mem_singleton.1 hcomma
    decide
  · exact not_bracket_of_isNameChar (h.isNameChar_params p hp c hcp)

theorem Definable.defineCall_eq (h : f.Definable) :
    defineCall (f.name ++ '(' :: (f.joined ++ ')' :: '\x7b' :: (f.body ++ ['\x7d']))) =
      f.source := by
  have hparens : parens (0, false) f.joined = some (0, false) :=
    track_plain _ fun c hc => by
      have hplain := h.mem_joined hc
      simp_all
  have hbrackets : brackets (0, false) f.joined = some (0, false) :=
    track_plain _ fun c hc => by
      have hplain := h.mem_joined hc
      simp_all [isOpening, isClosing]
  have hname : ∀ c ∈ f.name, isOpening c = false := by
    intro c hc
    have hplain := not_bracket_of_isNameChar (h.isNameChar List.mem_cons_self c hc)
    simp_all [isOpening]
  have hsplit := Text.splitFirst_append hname (c := '(') rfl
    (f.joined ++ ')' :: '\x7b' :: (f.body ++ ['\x7d']))
  have hparams : argumentsIn f.joined = f.params :=
    argumentsIn_join fun p hp =>
      isArgument_of_isIdentifier (h.identifiers p (List.mem_cons_of_mem _ hp))
  simp only [defineCall, hsplit, closeParen_balanced hparens,
    argumentsIn_close hbrackets (c := ')') rfl, hparams]
  simp [source]

theorem Definable.parse_definition (h : f.Definable) :
    parse defaultIgnore f.definition = .ok [f.source] := by
  have hopening : opening (['d', 'e', 'f', '~'] ++ (f.name ++
      '(' :: (f.joined ++ ')' :: '\x7b' :: (f.body ++ ['\x7d'])))) =
      .define (f.name ++ '(' :: (f.joined ++ ')' :: '\x7b' :: (f.body ++ ['\x7d']))) := by
    cases hname : f.name <;> simp [opening, opens?, Text.after?]
  rw [parse, h.split_definition]
  simp only [expand, expandFrom, hopening, h.defineCall_eq]
  rfl

theorem source_eq_block (f : Function) :
    f.source = header f.name f.params ++ '\x7b' :: (f.body ++ ['\x7d']) := by
  simp [source]

/-- The source form with the bytes of the body is the one of the function exactly if they are the
form of a text. -/
theorem sourceBytes_eq_iff {body : List UInt8} (hbody : Text.ofBytes body = f.body) :
    f.sourceBytes body = Text.bytes f.source ↔ Text.IsForm body := by
  rw [source_eq_block, ← blockBytes_bytes, sourceBytes, blockBytes_inj, Text.IsForm, hbody,
    eq_comm]

/-- A definition is read as the source form of the function with the body that its bytes decode
to. -/
theorem Definable.parse_definitionBytes (h : f.Definable) {body : List UInt8}
    (hbody : Text.ofBytes body = f.body) :
    parseBytes defaultIgnore (f.definitionBytes body) = .ok [Text.bytes f.source] := by
  have htext : Text.ofBytes (f.definitionBytes body) = f.definition := by
    rw [definitionBytes, ofBytes_blockBytes, hbody, definition]
  rw [parseBytes_eq, htext, h.parse_definition]
  rfl

end Function

namespace Script

/-- A definition is the fixed point of its own source form: it is read as the source form of its
function, and that form evaluates to the function, binds its name, and changes nothing else. Given
as bytes, a definition is read as the source form with the same body exactly if the body is the form
of a text; a byte that is part of no character does not come through. -/
theorem definition_fixed {f : Function} (h : f.Definable) :
    parse defaultIgnore f.definition = .ok [(Value.callable (some f)).source] ∧
    (∀ body, Text.ofBytes body = f.body →
      parseBytes defaultIgnore (f.definitionBytes body) =
        .ok [Text.bytes (Value.callable (some f)).source] ∧
      (f.sourceBytes body = Text.bytes (Value.callable (some f)).source ↔ Text.IsForm body)) ∧
    ∀ (settings : Settings) (s : State) (depth : Nat), settings.builtins = true →
      s.env.BindsIdentifiers →
      run settings (depth + 2) (Value.callable (some f)).source s =
        (.done (.callable (some f)),
          { s with env := s.env.set f.name (.callable (some f)) }) := by
  refine ⟨h.parse_definition, fun body hbody => ?_, fun settings s depth hbuiltins henv => ?_⟩
  · exact ⟨h.parse_definitionBytes hbody, Function.sourceBytes_eq_iff hbody⟩
  have hparen : Text.isNameChar '(' = false := by decide
  have hsource : f.source.isIdentifier = false := by
    simp [f.source_eq, Text.isIdentifier, hparen]
  exact run_source hbuiltins h.readable (henv.lookup_eq_none hsource) depth

/-- A function whose body has a comment, an unpaired quote, operators and nested blocks. -/
def clamping : Function where
  name := "clamp".toList
  params := [['x'], "low_1".toList]
  body := "if(x < low_1)\x7bx = low_1\x7d # x's \" (\nreturn = x * 2".toList

theorem definition_fixed_clamping :
    clamping.definition = "def clamp(x, low_1) \x7b".toList ++ clamping.body ++ ['\x7d'] ∧
      parse defaultIgnore clamping.definition = .ok [clamping.source] ∧
      run {} 2 clamping.source {} = (.done (.callable (some clamping)),
        { env := Env.empty.set "clamp".toList (.callable (some clamping)) }) := by
  have hbraces : ∀ t ∈ clamping.body.inits, t.count '\x7d' ≤ t.count '\x7b' := by decide +kernel
  have hbrackets : ∀ t ∈ clamping.body.inits,
      t.count ')' + t.count '\x7d' ≤ t.count '(' + t.count '\x7b' := by
    decide +kernel
  have hdefinable : clamping.Definable :=
    ⟨by decide +kernel, by decide +kernel, by decide +kernel,
      fun t ht => hbraces t ((List.mem_inits t _).2 ht),
      fun t ht => hbrackets t ((List.mem_inits t _).2 ht)⟩
  obtain ⟨hparse, -, hrun⟩ := definition_fixed hdefinable
  exact ⟨by decide, hparse, hrun {} {} 0 rfl Env.bindsIdentifiers_empty⟩

/-- A function without parameters, the body of which is to be given as bytes. -/
def nullary : Function := { name := ['f'], params := [], body := [] }

/-- A body of one byte that is part of no character is read as another body. -/
theorem parse_definition_stray_byte :
    parseBytes defaultIgnore (nullary.definitionBytes [0xff]) =
        .ok [nullary.sourceBytes [0xef, 0xbf, 0xbd]] ∧
      nullary.sourceBytes [0xef, 0xbf, 0xbd] ≠ nullary.sourceBytes [0xff] := by
  decide +kernel

end Script

end Scriptlet
