import LiveScene.Live.Settings
import Mathlib.Data.List.TakeWhile
import Mathlib.Tactic.SplitIfs

/-!
# Loading settings

`SettingsFault.Breaks` is what each fault says of settings, and a fault is the
first of them (`SettingsFault.IsFirst`) if no fault that is looked for earlier
is one. `Settings.fault?` finds the first fault (`Settings.fault?_eq_some_iff`).

A file is checked before a separate endpoint takes the place of its own, and
the outcome again. All that the endpoint changes is whether it is blank. So the
first check decides against the second just where the file has a blank endpoint
and gets another, or has a fault that a blank endpoint would come before
(`Settings.Parted`). `Settings.load_with_endpoint` is what is loaded where the
two agree and where they do not.
-/

namespace LiveScene.Live

open Text

/-! ## Faults -/

/-- A text of nothing but white space. -/
def Blank (s : String) : Prop := ∀ c ∈ s.toList, isSpace c = true

/-- Trimming leaves nothing of a blank text, and something of any other. -/
theorem trim_isEmpty_iff {s : String} : (trim s.toList).isEmpty = true ↔ Blank s := by
  rw [trim, List.isEmpty_reverse, List.isEmpty_iff, List.dropWhile_eq_nil_iff]
  simp only [List.mem_reverse]
  constructor
  · intro h c hc
    rw [← List.takeWhile_append_dropWhile (p := isSpace) (l := s.toList), List.mem_append] at hc
    exact hc.elim List.mem_takeWhile_imp (h c)
  · intro h c hc
    exact h c ((List.dropWhile_sublist _).subset hc)

namespace SettingsFault

/-- What a fault says of settings. -/
def Breaks (s : Settings) : SettingsFault → Prop
  | noContexts => s.sandbox.maxContexts = 0
  | noTime => s.sandbox.timeoutMs = 0
  | noEndpoint => Blank s.render.endpoint
  | noCapacity => s.store.notificationCapacity = 0
  | target _ => False

/-- The place of a fault in the order in which they are looked for. -/
def rank : SettingsFault → Nat
  | noContexts => 0
  | noTime => 1
  | noEndpoint => 2
  | noCapacity => 3
  | target _ => 4

/-- The first fault of settings. -/
structure IsFirst (s : Settings) (f : SettingsFault) : Prop where
  breaks : f.Breaks s
  not_breaks : ∀ g : SettingsFault, g.rank < f.rank → ¬ g.Breaks s

variable {s t : Settings} {f g : SettingsFault}

/-- A first fault stays one if no fault up to it comes or goes. -/
theorem IsFirst.congr (hf : f.IsFirst s)
    (same : ∀ g : SettingsFault, g.rank ≤ f.rank → (g.Breaks s ↔ g.Breaks t)) : f.IsFirst t where
  breaks := (same f (Nat.le_refl _)).1 hf.breaks
  not_breaks g hg := mt (same g (Nat.le_of_lt hg)).2 (hf.not_breaks g hg)

/-- Settings have one first fault. -/
theorem IsFirst.eq (hf : f.IsFirst s) (hg : g.IsFirst s) : f = g := by
  rcases Nat.lt_trichotomy f.rank g.rank with h | h | h
  · exact absurd hf.breaks (hg.not_breaks f h)
  · cases f with
    | target => exact hf.breaks.elim
    | _ => cases g <;> first | rfl | cases h
  · exact absurd hg.breaks (hf.not_breaks g h)

end SettingsFault

open SettingsFault

namespace Settings

variable {s : Settings} {e : Option String} {f : SettingsFault}

/-- Settings without a fault. -/
def Workable (s : Settings) : Prop := ∀ f : SettingsFault, ¬ f.Breaks s

theorem workable_of_fault?_eq_none (h : s.fault? = none) : s.Workable := by
  unfold fault? at h
  split_ifs at h with h₁ h₂ h₃ h₄
  intro f
  cases f with
  | noContexts => exact h₁
  | noTime => exact h₂
  | noEndpoint => exact mt trim_isEmpty_iff.2 h₃
  | noCapacity => exact h₄
  | target => exact id

/-- The fault that is found is the first. -/
theorem isFirst_of_fault?_eq_some (h : s.fault? = some f) : f.IsFirst s := by
  unfold fault? at h
  split_ifs at h with h₁ h₂ h₃ h₄
  all_goals obtain rfl := Option.some.inj h
  · exact ⟨h₁, by rintro (_ | _ | _ | _ | _) <;> simp [rank]⟩
  · exact ⟨h₂, by rintro (_ | _ | _ | _ | _) <;> simp [rank, Breaks, h₁]⟩
  · exact ⟨trim_isEmpty_iff.1 h₃, by rintro (_ | _ | _ | _ | _) <;> simp [rank, Breaks, h₁, h₂]⟩
  · rw [trim_isEmpty_iff] at h₃
    exact ⟨h₄, by rintro (_ | _ | _ | _ | _) <;> simp [rank, Breaks, h₁, h₂, h₃]⟩

/-- No fault is found just where there is none. -/
theorem fault?_eq_none_iff : s.fault? = none ↔ s.Workable := by
  refine ⟨workable_of_fault?_eq_none, fun hs => ?_⟩
  cases h : s.fault? with
  | none => rfl
  | some f => exact absurd (isFirst_of_fault?_eq_some h).breaks (hs f)

/-- The fault that is found is the first, and the first fault is found. -/
theorem fault?_eq_some_iff : s.fault? = some f ↔ f.IsFirst s := by
  refine ⟨isFirst_of_fault?_eq_some, fun hf => ?_⟩
  cases h : s.fault? with
  | none => exact absurd hf.breaks (workable_of_fault?_eq_none h f)
  | some g => rw [(isFirst_of_fault?_eq_some h).eq hf]

/-- Settings pass the check as they are, if they have no fault. -/
theorem checked_eq_ok_iff {t : Settings} : s.checked = .ok t ↔ s.Workable ∧ t = s := by
  rw [← fault?_eq_none_iff, checked]
  cases s.fault? <;> simp [eq_comm]

/-- The check fails with the first fault. -/
theorem checked_eq_error_iff {error : LoadError} :
    s.checked = .error error ↔ ∃ f, error = .invalid f ∧ f.IsFirst s := by
  simp only [← fault?_eq_some_iff, checked]
  cases s.fault? <;> simp [eq_comm]

/-- The defaults have no fault. -/
theorem workable_default : default.Workable := by
  rw [← fault?_eq_none_iff]
  decide +kernel

/-! ## A separate endpoint -/

/-- An endpoint makes no difference to other faults than its own. -/
theorem breaks_withEndpoint (hf : f ≠ .noEndpoint) : f.Breaks (s.withEndpoint e) ↔ f.Breaks s := by
  cases e <;> cases f <;> first | rfl | exact absurd rfl hf

/-- Settings whose first fault is no longer the first once they have the endpoint. -/
inductive Parted (s : Settings) : Option String → Prop
  /-- Their endpoint is blank and another takes its place. -/
  | mended {e : String} (first : noEndpoint.IsFirst s) (he : ¬ Blank e) : Parted s (some e)
  /-- A blank endpoint comes before the fault. -/
  | masked {e : String} (first : noCapacity.IsFirst s) (he : Blank e) : Parted s (some e)

/-- Unless the endpoint parts the two checks, the first fault is the same with it. -/
theorem isFirst_withEndpoint (hf : f.IsFirst s) (he : ¬ s.Parted e) :
    f.IsFirst (s.withEndpoint e) := by
  cases e with
  | none => exact hf
  | some e =>
    refine hf.congr fun g hg => ?_
    by_cases hne : g = .noEndpoint
    · subst hne
      -- Blank or not, the endpoint stays so, unless the settings are parted.
      cases f with
      | noEndpoint =>
        have hblank : Blank e := Classical.not_not.1 fun h => he (.mended hf h)
        exact iff_of_true hf.breaks hblank
      | noCapacity => exact iff_of_false (hf.not_breaks _ (by decide)) fun h => he (.masked hf h)
      | target => exact hf.breaks.elim
      | noContexts | noTime => simp [rank] at hg
    · exact (breaks_withEndpoint hne).symm

/-- Where the endpoint parts the two checks, the file has a first fault that is not first with
it. -/
theorem Parted.exists_isFirst (h : s.Parted e) :
    ∃ f : SettingsFault, f.IsFirst s ∧ ¬ f.IsFirst (s.withEndpoint e) := by
  cases h with
  | mended first he => exact ⟨_, first, fun h => he h.breaks⟩
  | masked first he => exact ⟨_, first, fun h => h.not_breaks .noEndpoint (by decide) he⟩

end Settings

/-! ## Files -/

/-- The settings that a file holds, before any check. -/
def SettingsFile.settings : SettingsFile → Except LoadError Settings
  | unnamed => .ok .default
  | missing => .error .unreadable
  | holding text => ((Toml.parse? text).bind Settings.ofToml?).elim (.error .malformed) .ok

namespace Settings

variable {s : Settings} {e : Option String} {file : SettingsFile}

theorem ofFile_eq_bind (file : SettingsFile) : ofFile file = file.settings >>= checked := by
  cases file with
  | unnamed => exact (checked_eq_ok_iff.2 ⟨workable_default, rfl⟩).symm
  | missing => rfl
  | holding text =>
    rw [ofFile, parse, SettingsFile.settings]
    cases (Toml.parse? text).bind ofToml? <;> rfl

theorem load_of_settings_eq_error {error : LoadError} (h : file.settings = .error error) :
    load file e = .error error := by
  rw [load, ofFile_eq_bind, h]
  rfl

/-- Settings that are read are checked, given the endpoint, and checked again. -/
theorem load_of_settings_eq_ok (h : file.settings = .ok s) :
    load file e = s.checked >>= fun s => (s.withEndpoint e).checked := by
  rw [load, ofFile_eq_bind, h]
  rfl

/-- Loading fails with the first fault of the file, whatever the endpoint. -/
theorem load_of_isFirst {f : SettingsFault} (h : file.settings = .ok s) (hf : f.IsFirst s) :
    load file e = .error (.invalid f) := by
  rw [load_of_settings_eq_ok h, checked_eq_error_iff.2 ⟨f, rfl, hf⟩]
  rfl

/-- Unless the endpoint parts the two checks, only the second counts. -/
theorem load_of_not_parted (h : file.settings = .ok s) (he : ¬ s.Parted e) :
    load file e = (s.withEndpoint e).checked := by
  cases hs : s.fault? with
  | none =>
    rw [load_of_settings_eq_ok h, checked_eq_ok_iff.2 ⟨fault?_eq_none_iff.1 hs, rfl⟩]
    rfl
  | some f =>
    have hf := fault?_eq_some_iff.1 hs
    rw [load_of_isFirst h hf]
    exact (checked_eq_error_iff.2 ⟨f, rfl, isFirst_withEndpoint hf he⟩).symm

/-- What is loaded. Without settings there is the error of the file, whatever the endpoint is. Of
settings that are not parted from the endpoint it is the check of them with the endpoint: those
very settings if they are workable, and otherwise their first fault. For parted settings, and for
no others, it is another answer, the first fault of what the file itself holds. -/
theorem load_with_endpoint (file : SettingsFile) (e : Option String) :
    (∀ error, file.settings = .error error → load file e = .error error) ∧
    ∀ s, file.settings = .ok s →
      (¬ s.Parted e →
        (∀ t, load file e = .ok t ↔ (s.withEndpoint e).Workable ∧ t = s.withEndpoint e) ∧
        ∀ error, load file e = .error error ↔
          ∃ f, error = .invalid f ∧ f.IsFirst (s.withEndpoint e)) ∧
      (s.Parted e → ∃ f, load file e = .error (.invalid f) ∧ f.IsFirst s ∧
        ¬ f.IsFirst (s.withEndpoint e)) := by
  refine ⟨fun error h => load_of_settings_eq_error h, fun s h => ⟨fun he => ?_, fun he => ?_⟩⟩
  · rw [load_of_not_parted h he]
    exact ⟨fun t => checked_eq_ok_iff, fun error => checked_eq_error_iff⟩
  · obtain ⟨f, hf, hnot⟩ := he.exists_isFirst
    exact ⟨f, load_of_isFirst h hf, hf, hnot⟩

/-- An endpoint, and how long to wait for it. -/
def patientText : String := "[render]\nendpoint = \"http://render:9000\"\ntimeout_ms = 500\n"

/-- A file with a timeout, and an endpoint that takes the place of its own. -/
theorem load_with_endpoint_patient :
    let s : Settings := { default with render := ⟨"http://render:9000", 500⟩ }
    SettingsFile.settings (.holding patientText) = .ok s ∧ ¬ s.Parted (some "http://other:1") ∧
      load (.holding patientText) (some "http://other:1") =
        .ok { default with render := ⟨"http://other:1", 500⟩ } ∧
      load (.holding "[render") (some "http://other:1") = .error .malformed := by
  intro s
  have hs : SettingsFile.settings (.holding patientText) = .ok s := by decide +kernel
  have hfault : s.fault? = none := by decide +kernel
  have he : ¬ s.Parted (some "http://other:1") := by
    rintro (⟨first, -⟩ | ⟨first, -⟩) <;>
      simp [fault?_eq_some_iff.2 first] at hfault
  have hmended : (s.withEndpoint (some "http://other:1")).Workable :=
    fault?_eq_none_iff.1 (by decide +kernel)
  exact ⟨hs, he, (((load_with_endpoint _ _).2 s hs).1 he).1 _ |>.2 ⟨hmended, rfl⟩,
    (load_with_endpoint _ _).1 _ (by decide +kernel)⟩

/-- A blank endpoint in a file is a fault though another takes its place. -/
theorem blank_endpoint_not_mended :
    let file := SettingsFile.holding "[render]\nendpoint = \"\"\n"
    let s : Settings := { default with render := ⟨"", 30000⟩ }
    file.settings = .ok s ∧ (s.withEndpoint (some "http://other:1")).Workable ∧
      load file (some "http://other:1") = .error (.invalid .noEndpoint) := by
  intro file s
  have hs : file.settings = .ok s := by decide +kernel
  have hmended : (s.withEndpoint (some "http://other:1")).Workable :=
    fault?_eq_none_iff.1 (by decide +kernel)
  exact ⟨hs, hmended, load_of_isFirst hs (fault?_eq_some_iff.1 (by decide +kernel))⟩

end Settings

end LiveScene.Live
