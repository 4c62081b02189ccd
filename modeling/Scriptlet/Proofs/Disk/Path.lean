import Scriptlet.Proofs.Store.Reopen

/-! Cleaned paths. Following the names of a path on the disk and cleaning the path without looking
at the disk end at the same place, as long as the path can be followed at all: two points leave a
directory that is there, so they take away the name that led into it. What is written under a path
is therefore read under the absolute form of the path. -/

namespace Scriptlet.Disk

open Scriptlet.Path (names enter clean absolute isRooted)

/-! ### Places that paths lead to -/

/-- Characters that stand in no name. -/
def isMark (c : Char) : Bool := c == '/' || c == '\x00'

/-- A name that leads from a directory into it. -/
structure IsName (name : Text) : Prop where
  ne_nil : name ≠ []
  ne_point : name ≠ ['.']
  ne_points : name ≠ ['.', '.']
  solid : name.any isMark = false
  length : name.byteLength ≤ nameLimit

/-- The names of a place lead to it, each from a directory. -/
structure Leads (d : Disk) (p : Place) : Prop where
  names : ∀ name ∈ p, IsName name
  directory : ∀ k < p.length, d.isDirectory (p.take k) = true

theorem leads_nil (d : Disk) : d.Leads [] := ⟨nofun, nofun⟩

theorem Leads.concat {d : Disk} {p : Place} {name : Text} (h : d.Leads p) (hname : IsName name)
    (hp : d.isDirectory p = true) : d.Leads (p ++ [name]) := by
  refine ⟨fun other hmem => ?_, fun k hk => ?_⟩
  · rcases List.mem_append.1 hmem with hmem | hmem
    · exact h.names other hmem
    · obtain rfl := List.mem_singleton.1 hmem
      exact hname
  · rw [List.length_append, List.length_singleton] at hk
    rw [List.take_append_of_le_length (by omega)]
    by_cases hlast : k = p.length
    · rw [hlast, List.take_length]
      exact hp
    · exact h.directory k (by omega)

theorem Leads.dropLast {d : Disk} {p : Place} (h : d.Leads p) : d.Leads p.dropLast := by
  rw [List.dropLast_eq_take]
  refine ⟨fun name hmem => h.names name (List.mem_of_mem_take hmem), fun k hk => ?_⟩
  rw [List.length_take] at hk
  rw [List.take_take, Nat.min_eq_left (by omega)]
  exact h.directory k (by omega)

/-- Writing a file takes no directory away. -/
theorem Leads.put {d : Disk} {p : Place} (h : d.Leads p) (q : Place) (t : Text) :
    (d.put q t).Leads p :=
  ⟨h.names, fun k hk => by rw [isDirectory_put, h.directory k hk, Bool.true_or]⟩

/-! ### Following and cleaning -/

theorem enter_of_isName {name : Text} (h : IsName name) (rooted : Bool) (passed : List Text) :
    enter rooted passed name = name :: passed := by
  simp [enter, h.ne_nil, h.ne_point, h.ne_points]

theorem enter_points {p : Place} (h : ∀ name ∈ p, IsName name) :
    enter true p.reverse ['.', '.'] = p.dropLast.reverse := by
  rcases List.eq_nil_or_concat p with rfl | ⟨q, last, rfl⟩
  · rfl
  · have hlast : last ≠ ['.', '.'] := (h last (by simp)).ne_points
    simp [enter, hlast]

/-- One step of a path that can be followed. -/
theorem follow_cons {d : Disk} {p q : Place} {name : Text} {ns : List Text}
    (h : d.follow p (name :: ns) = .ok q) (hname : name.any isMark = false)
    (hp : d.Leads p) :
    ∃ p', d.Leads p' ∧ enter true p.reverse name = p'.reverse ∧ d.follow p' ns = .ok q := by
  rw [follow] at h
  split at h
  · cases h
  · next hdirectory =>
    simp only [Bool.not_eq_true, Bool.not_eq_false'] at hdirectory
    split at h
    · next hskip => exact ⟨p, hp, by simp only [enter, hskip, if_true], h⟩
    · next hskip =>
      split at h
      · next hpoints =>
        subst hpoints
        exact ⟨p.dropLast, hp.dropLast, enter_points hp.names, h⟩
      · next hpoints =>
        split at h
        · cases h
        · next hlength =>
          simp only [Bool.or_eq_true, decide_eq_true_eq, not_or] at hskip
          have hname : IsName name :=
            ⟨hskip.1, hskip.2, hpoints, hname, Nat.le_of_not_lt hlength⟩
          refine ⟨p ++ [name], hp.concat hname hdirectory, ?_, h⟩
          rw [enter_of_isName hname]
          simp

/-- A path that can be followed ends where its names, entered one after another, end. -/
theorem follow_spec {d : Disk} {p q : Place} {ns : List Text} (h : d.follow p ns = .ok q)
    (hns : ∀ name ∈ ns, name.any isMark = false) (hp : d.Leads p) :
    d.Leads q ∧ ns.foldl (enter true) p.reverse = q.reverse := by
  induction ns generalizing p with
  | nil =>
    cases h
    exact ⟨hp, rfl⟩
  | cons name ns ih =>
    obtain ⟨p', hp', henter, h⟩ := follow_cons h (hns name List.mem_cons_self) hp
    rw [List.foldl_cons, henter]
    exact ih h (fun n hn => hns n (List.mem_cons_of_mem name hn)) hp'

/-- The names of a place can be followed. -/
theorem follow_of_leads {d : Disk} {p ns : Place} (h : d.Leads (p ++ ns)) :
    d.follow p ns = .ok (p ++ ns) := by
  induction ns generalizing p with
  | nil => simp [follow]
  | cons name ns ih =>
    have hname : IsName name := h.names name (by simp)
    have hdirectory : d.isDirectory p = true := by
      simpa using h.directory p.length (by simp)
    rw [List.append_cons] at h ⊢
    rw [follow, if_neg (by simp [hdirectory]), if_neg (by simp [hname.ne_nil, hname.ne_point]),
      if_neg hname.ne_points, if_neg (Nat.not_lt.2 hname.length)]
    exact ih h

theorem follow_empty (d : Disk) (ns : List Text) : d.follow [] ([] :: ns) = d.follow [] ns := by
  simp [follow, isDirectory]

/-- The absolute path of a place leads to it. -/
theorem locate_slash {d : Disk} {p : Place} (hp : d.Leads p)
    (hlt : Text.byteLength ('/' :: List.intercalate ['/'] p) < pathLimit) :
    d.locate ('/' :: List.intercalate ['/'] p) = .ok p := by
  have hmark : ∀ name ∈ p, ∀ c ∈ name, isMark c ≠ true := fun name hname =>
    List.any_eq_false.1 (hp.names name hname).solid
  have hslash : ∀ name ∈ p, '/' ∉ name := fun name hname hmem => hmark name hname '/' hmem rfl
  have hnul : '\x00' ∉ '/' :: List.intercalate ['/'] p := by
    intro h
    rcases List.mem_cons.1 h with h | h
    · cases h
    · rcases Text.mem_intercalate h with h | ⟨name, hname, h⟩
      · simp at h
      · exact hmark name hname _ h rfl
  have hfollow : d.follow [] (names ('/' :: List.intercalate ['/'] p)) = .ok p := by
    rw [names, List.splitOn_cons_eq_if_modifyHead, if_pos (by decide), follow_empty]
    by_cases hnil : p = []
    · subst hnil
      exact follow_empty d []
    · rw [List.splitOn_intercalate '/' hslash hnil]
      exact follow_of_leads hp
  rw [locate, if_neg (by simpa using hnul), if_neg (by simp), if_neg (Nat.not_le.2 hlt)]
  exact hfollow

/-! ### Absolute paths -/

/-- The working directory is named by its absolute path. -/
structure IsRooted (d : Disk) : Prop where
  rooted : isRooted d.dir = true
  names : ∀ name ∈ placeOf d.dir, IsName name

theorem IsRooted.leads {d : Disk} (h : d.IsRooted) : d.Leads (placeOf d.dir) := by
  refine ⟨h.names, fun k hk => ?_⟩
  have hprefix : ((placeOf d.dir).take k).isPrefixOf (placeOf d.dir) = true :=
    List.isPrefixOf_iff_prefix.2 (List.take_prefix k _)
  rw [isDirectory, hprefix, Bool.true_or]

theorem foldl_enter_names {ns : List Text} (h : ∀ name ∈ ns.filter (!·.isEmpty), IsName name)
    (passed : List Text) :
    ns.foldl (enter true) passed = (ns.filter (!·.isEmpty)).reverse ++ passed := by
  induction ns generalizing passed with
  | nil => rfl
  | cons name ns ih =>
    rw [List.foldl_cons]
    by_cases hempty : name = []
    · subst hempty
      exact ih h passed
    · rw [List.filter_cons_of_pos (by simpa using hempty)] at h ⊢
      rw [enter_of_isName (h name List.mem_cons_self),
        ih fun n hn => h n (List.mem_cons_of_mem name hn)]
      simp

theorem clean_of_isRooted {path : Text} {p : Place} (h : isRooted path = true)
    (hnames : (names path).foldl (enter true) [] = p.reverse) :
    clean path = '/' :: List.intercalate ['/'] p := by
  simp [clean, h, hnames]

/-- The absolute form of a path is the path of the place that it leads to. -/
theorem absolute_of_locate {d : Disk} {path : Text} {p : Place} (hd : d.IsRooted)
    (h : d.locate path = .ok p) :
    d.Leads p ∧ absolute d.dir path = '/' :: List.intercalate ['/'] p := by
  rw [locate] at h
  split at h
  · cases h
  · next hnul =>
    have hnames : ∀ name ∈ names path, name.any isMark = false := by
      intro name hname
      refine List.any_eq_false.2 fun c hc => ?_
      obtain ⟨hmem, hslash⟩ := Text.of_mem_splitOn hname hc
      have hne : c ≠ '\x00' := by
        rintro rfl
        exact hnul (by simpa using hmem)
      simp [isMark, hslash, hne]
    split at h
    · cases h
    · split at h
      · cases h
      · rw [absolute]
        split at h
        · next hrooted =>
          rw [if_pos hrooted]
          obtain ⟨hleads, hfold⟩ := follow_spec h hnames d.leads_nil
          exact ⟨hleads, clean_of_isRooted hrooted hfold⟩
        · next hrooted =>
          rw [if_neg hrooted, Path.join]
          obtain ⟨hleads, hfold⟩ := follow_spec h hnames hd.leads
          have hdir := foldl_enter_names hd.names []
          rw [List.append_nil] at hdir
          refine ⟨hleads, clean_of_isRooted ?_ ?_⟩
          · have hhead := hd.rooted
            rw [isRooted, beq_iff_eq] at hhead ⊢
            rw [List.head?_append, hhead]
            rfl
          · rw [names, List.splitOn_append_cons_self, List.foldl_append]
            exact hdir.symm ▸ hfold

/-! ### Reading what was written -/

theorem trimEnd_of_getLast? {p : Char → Bool} {t : Text} (h : t.getLast?.any p = false) :
    t.trimEnd p = t := by
  rw [← List.head?_reverse] at h
  rw [Text.trimEnd]
  cases hreverse : t.reverse with
  | nil => simpa using hreverse.symm
  | cons c u =>
    rw [hreverse] at h
    rw [List.dropWhile_cons_of_neg (by simpa using h), ← hreverse, List.reverse_reverse]

/-- A file is written at a place that is no directory, and its path does not end in a slash. -/
theorem write_eq_ok {d d' : Disk} {path t : Text} (h : d.write path t = .ok d') :
    ∃ p, d.locate path = .ok p ∧ d.isDirectory p = false ∧ d' = d.put p t := by
  rw [write] at h
  cases hlocate : d.locate (path.trimEnd (· == '/')) with
  | error fault =>
    rw [hlocate] at h
    cases h
  | ok p =>
    rw [hlocate] at h
    replace h : (if d.isDirectory p || path.getLast? == some '/' then .error Fault.directory
      else .ok (d.put p t)) = Except.ok d' := h
    split at h
    · cases h
    · next hfree =>
      cases h
      simp only [Bool.or_eq_true, beq_iff_eq, not_or, Bool.not_eq_true] at hfree
      have hlast : path.getLast?.any (· == '/') = false := by
        cases hlast : path.getLast? with
        | none => rfl
        | some c => simpa [hlast] using hfree.2
      rw [trimEnd_of_getLast? hlast] at hlocate
      exact ⟨p, hlocate, hfree.1, rfl⟩

/-- A file that was written is read under the absolute form of its path. -/
theorem read_absolute_of_write {d d' : Disk} {path t : Text} (hd : d.IsRooted)
    (hlt : Text.byteLength (absolute d.dir path) < pathLimit) (h : d.write path t = .ok d') :
    d'.read (absolute d'.dir path) = .ok t := by
  obtain ⟨p, hlocate, hfree, rfl⟩ := write_eq_ok h
  obtain ⟨hleads, habsolute⟩ := absolute_of_locate hd hlocate
  rw [habsolute] at hlt
  have hdirectory : (d.put p t).isDirectory p = false := by
    simp [isDirectory_put, hfree]
  rw [dir_put, habsolute, read, locate_slash (hleads.put p t) hlt]
  show (if (d.put p t).isDirectory p then _ else _) = _
  rw [hdirectory, content?_put]
  rfl

end Scriptlet.Disk
