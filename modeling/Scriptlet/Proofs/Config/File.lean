import Scriptlet.Config.File
import Scriptlet.Proofs.Config.Format
import Scriptlet.Proofs.Disk.Path

/-! Configuration files that are written and loaded again. A configuration comes back as it was,
but for two things. The database, the greatest depth and the characters to drop have a default of
their own and are written only if they are not empty or zero, so without a database, say, a
configuration comes back with the usual one. And a text of several lines comes back without a line
break at its start, and not at all with a tab there. -/

namespace Scriptlet.Config

theorem ne_of_ite_eq {α : Type} {x y z given : α} [Decidable (x = z)] (hgiven : given ≠ z)
    (h : (if x = z then given else y) = x) : x ≠ z ∧ y = x := by
  by_cases hx : x = z
  · rw [if_pos hx] at h
    exact absurd (h.trans hx) hgiven
  · rw [if_neg hx] at h
    exact ⟨hx, h⟩

theorem readBack?_eq_self_iff (c : Config) :
    c.readBack? = some c ↔ c.db ≠ [] ∧ c.maxDepth ≠ 0 ∧ c.ignore ≠ [] ∧
      ∀ t ∈ [c.db, c.history, c.ignore], Yaml.readBack? t = some t := by
  simp only [List.forall_mem_cons]
  constructor
  · intro h
    simp only [readBack?, Option.bind_eq_bind, Option.bind_eq_some_iff] at h
    obtain ⟨db, hdb, history, hhistory, ignore, hignore, h⟩ := h
    have heq := Option.some.inj h
    obtain ⟨hdb', rfl⟩ := ne_of_ite_eq (by decide) (congrArg Config.db heq)
    obtain ⟨hdepth, -⟩ := ne_of_ite_eq (by decide) (congrArg maxDepth heq)
    obtain rfl : history = c.history := congrArg Config.history heq
    obtain ⟨hignore', rfl⟩ := ne_of_ite_eq (by decide) (congrArg Config.ignore heq)
    exact ⟨hdb', hdepth, hignore', hdb, hhistory, hignore, List.forall_mem_nil _⟩
  · rintro ⟨hdb', hdepth, hignore', hdb, hhistory, hignore, -⟩
    simp [readBack?, hdb, hhistory, hignore, hdb', hdepth, hignore']

/-- What is loaded from a file is what comes back of the configuration that was written there. -/
theorem load_write {d d' : Disk} {path : Text} {c : Config} (hd : d.IsRooted)
    (hlt : Text.byteLength (Path.absolute d.dir path) < Disk.pathLimit) (hc : c.HasLimits)
    (hwrite : write d path (some c) = .ok d') :
    (load d' path).toOption = c.readBack? ∧
      (load d' path = .ok c ↔ c.db ≠ [] ∧ c.maxDepth ≠ 0 ∧ c.ignore ≠ [] ∧
        ∀ t ∈ [c.db, c.history, c.ignore], Yaml.readBack? t = some t) := by
  have hdisk : d.write path c.render = .ok d' := by
    cases h : d.write path c.render with
    | error fault =>
      rw [write, h] at hwrite
      cases hwrite
    | ok d'' =>
      rw [write, h] at hwrite
      exact congrArg Except.ok (Except.ok.inj hwrite)
  have hread := Disk.read_absolute_of_write hd hlt hdisk
  have hne : path ≠ [] := by
    rintro rfl
    cases hdisk
  have hload : (load d' path).toOption = c.readBack? := by
    rw [← toOption_ofText_render hc, load, if_neg (by simpa using hne)]
    simp only [hread]
    cases ofText c.render <;> rfl
  refine ⟨hload, ?_⟩
  rw [← readBack?_eq_self_iff, ← hload]
  cases load d' path with
  | error fault => exact ⟨fun h => (by cases h), fun h => (by cases h)⟩
  | ok c' => exact ⟨fun h => congrArg Except.toOption h, fun h => congrArg _ (Option.some.inj h)⟩

/-- A disk with nothing on it. -/
def sampleDisk : Disk := { dir := "/home/a".toList }

/-- A configuration without a database, and with texts that need quotes or several lines. -/
def sampleConfig : Config :=
  { memory := true, maxDepth := 40, history := "true".toList, ignore := "\n #\nb".toList }

theorem load_write_without_database :
    ∃ d', write sampleDisk "../b.yaml".toList (some sampleConfig) = .ok d' ∧
      (load d' "../b.yaml".toList).toOption =
        some { sampleConfig with db := "ascript.db".toList, ignore := " #\nb".toList } ∧
          load d' "../b.yaml".toList ≠ .ok sampleConfig := by
  have hd : sampleDisk.IsRooted := by
    refine ⟨by decide, fun name hname => ?_⟩
    have hplace : name ∈ ["home".toList, "a".toList] := hname
    rcases List.mem_cons.1 hplace with rfl | hplace
    · exact ⟨by decide, by decide, by decide, by decide, by decide⟩
    · obtain rfl := List.mem_singleton.1 hplace
      exact ⟨by decide, by decide, by decide, by decide, by decide⟩
  have hlt : Text.byteLength (Path.absolute sampleDisk.dir "../b.yaml".toList) <
      Disk.pathLimit := by decide
  have hwrite : write sampleDisk "../b.yaml".toList (some sampleConfig) =
      .ok (sampleDisk.put ["home".toList, "b.yaml".toList] sampleConfig.render) := rfl
  obtain ⟨hload, hiff⟩ := load_write hd hlt ⟨by decide, by decide⟩ hwrite
  exact ⟨_, hwrite, hload.trans (by decide +kernel), fun h => (hiff.1 h).1 rfl⟩

end Scriptlet.Config
