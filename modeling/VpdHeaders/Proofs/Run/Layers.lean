import VpdHeaders.Proofs.Run.Header
import VpdHeaders.Proofs.Scope.Spelled

/-! # The layers of a configuration: command line, settings file, and standard

Each field comes from the first layer that gives it. The command line has no say in the paths of the
other header. A fault in the settings file counts even where the command line gives the same field. -/
namespace VpdHeaders

namespace Config

variable {flags : Invocation} {s : Settings} {base c : Config} {scope : List String}

section Settings

namespace Settings

def nothing : Settings := ⟨none, none, ⟨none, none⟩, ⟨none, none⟩⟩

def paths (s : Settings) : Target → PathSettings
  | .writeFru => s.writeFru
  | .extraProperties => s.extraProperties

def read? (text : String) : Option Settings := (Toml.read text).bind ofDocument?

def HasUsableScope (s : Settings) : Prop :=
  ∀ segments, s.scope = some segments → ∀ segment ∈ segments, Identifier.IsUsable segment

def overStandard (s : Settings) : Config where
  writeFru := s.writeFru.over standard.writeFru
  extraProperties := s.extraProperties.over standard.extraProperties
  scope := s.scope.getD standard.scope
  policy := (s.lenient.map EmptyPolicy.ofLenient).getD standard.policy

theorem paths_overStandard (s : Settings) (target : Target) :
    s.overStandard.paths target = (s.paths target).over (standard.paths target) := by
  cases target <;> rfl

theorem policy_overStandard : s.overStandard.policy = .skip ↔ s.lenient = some true := by
  have hpolicy : s.overStandard.policy = (s.lenient.map EmptyPolicy.ofLenient).getD .reject := rfl
  rw [hpolicy]
  cases s.lenient with
  | none => decide
  | some lenient => cases lenient <;> decide

end Settings

theorem ofSettings_cases (s : Settings) :
    s.HasUsableScope ∧ ofSettings s = .ok s.overStandard ∨
      ¬s.HasUsableScope ∧ ∃ fault, ofSettings s = .error fault := by
  rw [ofSettings, Settings.HasUsableScope, Settings.overStandard]
  cases s.scope with
  | none => exact .inl ⟨by simp, rfl⟩
  | some segments =>
    simp only [Option.some.injEq, forall_eq', Option.getD_some]
    cases hc : Scope.check segments with
    | ok scope =>
      obtain ⟨rfl, husable⟩ := Scope.check_eq_ok_iff.mp hc
      simp only [Scope.segmentFault?_eq_none_iff_isUsable] at husable
      exact .inl ⟨husable, rfl⟩
    | error fault =>
      refine .inr ⟨fun husable => ?_, fault, rfl⟩
      have hok : Scope.check segments = .ok segments := by
        simpa [Scope.check_eq_ok_iff, Scope.segmentFault?_eq_none_iff_isUsable] using husable
      rw [hok] at hc
      cases hc

theorem toOption_ofText (text : String) : (ofText text).toOption =
    (Settings.read? text).bind fun s => (ofSettings s).toOption := by
  rw [ofText, Settings.read?]
  cases (Toml.read text).bind Settings.ofDocument? with
  | none => rfl
  | some s =>
    rw [Option.bind_some]
    cases hs : ofSettings s <;> simp [hs, Except.mapError, Except.toOption]

end Settings

section Flags

/-- The flags over a configuration, with a scope that is found already. -/
def flagged (base : Config) (flags : Invocation) (scope : List String) : Config :=
  let paths := base.paths flags.target
  { base.withPaths ⟨flags.input.getD paths.input, flags.output.getD paths.output⟩ flags.target with
    scope := scope
    policy := if flags.lenient then .skip else base.policy }

theorem withFlags_eq (base : Config) (flags : Invocation) :
    base.withFlags flags =
      (flags.scope.elim (.ok base.scope) Scope.parse).map (base.flagged flags) := by
  have hscope (p : Paths) : (base.withPaths p flags.target).scope = base.scope := by
    cases flags.target <;> rfl
  have hpolicy (p : Paths) : (base.withPaths p flags.target).policy = base.policy := by
    cases flags.target <;> rfl
  simp only [withFlags, hscope, hpolicy]
  cases flags.scope with
  | none => rfl
  | some spec =>
    simp only [Option.elim_some]
    cases Scope.parse spec <;> rfl

theorem paths_flagged_self (base : Config) (flags : Invocation) (scope : List String) :
    (base.flagged flags scope).paths flags.target =
      ⟨flags.input.getD (base.paths flags.target).input,
        flags.output.getD (base.paths flags.target).output⟩ := by
  simp only [flagged]
  cases flags.target <;> rfl

theorem paths_flagged_of_ne {target : Target} (h : target ≠ flags.target) :
    (base.flagged flags scope).paths target = base.paths target := by
  simp only [flagged]
  cases htarget : flags.target <;> cases target <;> first | rfl | exact absurd htarget.symm h

def IsReadable (spec : String) : Prop :=
  ∃ scope, (∀ segment ∈ scope, Identifier.IsUsable segment) ∧ Scope.IsSpelled spec scope

theorem withFlags_eq_error_iff : (∃ fault, base.withFlags flags = .error fault) ↔
    ∃ spec, flags.scope = some spec ∧ ¬IsReadable spec := by
  rw [withFlags_eq]
  cases flags.scope with
  | none => simp [Except.map]
  | some spec =>
    simp only [IsReadable, ← Scope.parse_eq_ok_iff, Option.elim_some, Option.some.injEq,
      exists_eq_left']
    cases Scope.parse spec <;> simp [Except.map]

end Flags

/-- The flags, settings and standard make this configuration. -/
structure IsLayered (flags : Invocation) (s : Settings) (c : Config) : Prop where
  input : (c.paths flags.target).input =
    (flags.input.or (s.paths flags.target).input).getD (standard.paths flags.target).input
  output : (c.paths flags.target).output =
    (flags.output.or (s.paths flags.target).output).getD (standard.paths flags.target).output
  otherInput : ∀ target ≠ flags.target,
    (c.paths target).input = (s.paths target).input.getD (standard.paths target).input
  otherOutput : ∀ target ≠ flags.target,
    (c.paths target).output = (s.paths target).output.getD (standard.paths target).output
  scope : flags.scope = none → c.scope = s.scope.getD standard.scope
  flaggedScope : ∀ spec, flags.scope = some spec →
    (∀ segment ∈ c.scope, Identifier.IsUsable segment) ∧ Scope.IsSpelled spec c.scope
  blankScope : ∀ spec, flags.scope = some spec → Text.isBlankText spec = true → c.scope = []
  policy : c.policy = .skip ↔ flags.lenient = true ∨ s.lenient = some true

theorem isLayered_flagged
    (h : flags.scope.elim (.ok s.overStandard.scope) Scope.parse = .ok scope) :
    IsLayered flags s (s.overStandard.flagged flags scope) := by
  have hself := paths_flagged_self s.overStandard flags scope
  have hother {target : Target} (ht : target ≠ flags.target) :
      (s.overStandard.flagged flags scope).paths target =
        (s.paths target).over (standard.paths target) :=
    (paths_flagged_of_ne ht).trans (s.paths_overStandard target)
  rw [s.paths_overStandard] at hself
  have hparsed (spec : String) (hs : flags.scope = some spec) : Scope.parse spec = .ok scope := by
    rwa [hs] at h
  exact
    { input := by
        rw [hself]
        cases flags.input <;> rfl
      output := by
        rw [hself]
        cases flags.output <;> rfl
      otherInput := fun target ht => by
        rw [hother ht]
        rfl
      otherOutput := fun target ht => by
        rw [hother ht]
        rfl
      scope := fun hs => by
        rw [hs] at h
        exact (Except.ok.inj h).symm
      flaggedScope := fun spec hs => Scope.parse_eq_ok_iff.mp (hparsed spec hs)
      blankScope := fun spec hs hblank => by
        have hp := hparsed spec hs
        rw [Scope.parse, if_pos hblank] at hp
        exact (Except.ok.inj hp).symm
      policy := by
        have hpolicy : (s.overStandard.flagged flags scope).policy =
            if flags.lenient then .skip else s.overStandard.policy := rfl
        rw [hpolicy]
        cases flags.lenient <;> simp [Settings.policy_overStandard] }

end Config

open FileSystem

namespace FileSystem

def settings? (fs : FileSystem) : Option String → Option Config.Settings
  | none => some .nothing
  | some path => (fs.readText path).toOption.bind Config.Settings.read?

inductive IsRefused (fs : FileSystem) (flags : Invocation) : Prop
  | unreadable {path : String} {fault : FileFault} (h : flags.config = some path)
      (hr : fs.readText path = .error fault)
  | malformed {path text : String} (h : flags.config = some path)
      (hr : fs.readText path = .ok text) (hs : Config.Settings.read? text = none)
  | settings {path text : String} {s : Config.Settings} (h : flags.config = some path)
      (hr : fs.readText path = .ok text) (hs : Config.Settings.read? text = some s)
      (hn : ¬s.HasUsableScope)
  | flag {spec : String} (h : flags.scope = some spec) (hn : ¬Config.IsReadable spec)

variable {fs : FileSystem} {flags : Invocation} {c : Config}

theorem configured?_eq (fs : FileSystem) (flags : Invocation) : fs.configured? flags =
    (fs.settings? flags.config).bind fun s =>
      (Config.ofSettings s).toOption.bind fun base => (base.withFlags flags).toOption := by
  rw [configured?]
  cases flags.config with
  | none => rfl
  | some path =>
    change ((fs.readText path).toOption.bind fun text => (Config.ofText text).toOption).bind _ =
      ((fs.readText path).toOption.bind Config.Settings.read?).bind _
    simp only [Config.toOption_ofText, Option.bind_assoc]

private theorem toOption_eq_none_iff {α ε : Type} {r : Except ε α} :
    r.toOption = none ↔ ∃ e, r = .error e := by
  cases r <;> simp [Except.toOption]

private theorem isRefused_of_settings {s : Config.Settings} (h : fs.settings? flags.config = some s)
    (hn : ¬s.HasUsableScope) : fs.IsRefused flags := by
  cases hc : flags.config with
  | none =>
    rw [hc, settings?, Option.some.injEq] at h
    subst h
    exact absurd nofun hn
  | some path =>
    rw [hc] at h
    cases hr : fs.readText path with
    | error fault => exact .unreadable hc hr
    | ok text => exact .settings hc hr (by simpa [settings?, hr, Except.toOption] using h) hn

private theorem isRefused_of_no_settings (h : fs.settings? flags.config = none) :
    fs.IsRefused flags := by
  cases hc : flags.config with
  | none => simp [hc, settings?] at h
  | some path =>
    rw [hc] at h
    cases hr : fs.readText path with
    | error fault => exact .unreadable hc hr
    | ok text => exact .malformed hc hr (by simpa [settings?, hr, Except.toOption] using h)

/-- There is a configuration unless one of the layers is no good. -/
theorem configured?_eq_none_iff : fs.configured? flags = none ↔ fs.IsRefused flags := by
  rw [configured?_eq]
  cases hs : fs.settings? flags.config with
  | none => simp [isRefused_of_no_settings hs]
  | some s =>
    rw [Option.bind_some]
    rcases Config.ofSettings_cases s with ⟨husable, hok⟩ | ⟨hn, fault, hfault⟩
    · rw [hok]
      change (s.overStandard.withFlags flags).toOption = none ↔ _
      rw [toOption_eq_none_iff, Config.withFlags_eq_error_iff]
      constructor
      · rintro ⟨spec, hspec, hn⟩
        exact .flag hspec hn
      · rintro (⟨hc, hr⟩ | ⟨hc, hr, hs'⟩ | ⟨hc, hr, hs', hn⟩ | ⟨hspec, hn⟩)
        · simp [hc, settings?, hr, Except.toOption] at hs
        · simp [hc, settings?, hr, hs', Except.toOption] at hs
        · simp only [hc, settings?, hr, hs', Except.toOption, Option.bind_some,
            Option.some.injEq] at hs
          subst hs
          exact absurd husable hn
        · exact ⟨_, hspec, hn⟩
    · simp [hfault, Except.toOption, isRefused_of_settings hs hn]

theorem isLayered_of_configured? (h : fs.configured? flags = some c) :
    ∃ s, fs.settings? flags.config = some s ∧ Config.IsLayered flags s c := by
  rw [configured?_eq] at h
  obtain ⟨s, hs, h⟩ := Option.bind_eq_some_iff.mp h
  refine ⟨s, hs, ?_⟩
  rcases Config.ofSettings_cases s with ⟨-, hok⟩ | ⟨-, fault, hfault⟩
  · rw [hok] at h
    change (s.overStandard.withFlags flags).toOption = some c at h
    rw [Config.withFlags_eq] at h
    cases hscope : flags.scope.elim (.ok s.overStandard.scope) Scope.parse with
    | error fault =>
      rw [hscope] at h
      cases h
    | ok scope =>
      rw [hscope] at h
      obtain rfl := Option.some.inj h
      exact Config.isLayered_flagged hscope
  · rw [hfault] at h
    cases h

end FileSystem

/-- A run finds its configuration, and leaves all files as they are, unless its settings file cannot be
read, is no settings document or gives a segment that cannot name a namespace, or the command line
gives a scope that cannot be read. Each field of the configuration then comes from the first layer
that gives it; the paths of the other header are not for the command line to give. -/
theorem resolves_by_precedence (faults : Faults) (fs : FileSystem) (flags : Invocation) :
    ∃ r, Ends ((disk faults).resolveConfig flags) fs r fs ∧
      ((∃ failure, r = .error failure) ↔ fs.IsRefused flags) ∧
      ∀ c, r = .ok c → ∃ s, fs.settings? flags.config = some s ∧ Config.IsLayered flags s c := by
  have hfinds : Finds ((disk faults).resolveConfig flags) fs (fs.configured? flags) :=
    finds_resolveConfig faults flags
  obtain ⟨r, hr, hv⟩ := hfinds
  refine ⟨r, hr, ?_, ?_⟩
  · rw [← configured?_eq_none_iff, ← hv]
    cases r <;> simp [Except.toOption]
  · rintro c rfl
    exact isLayered_of_configured? hv.symm

/-- A working directory with a settings file, which does not say where the inventory header goes. -/
def desk : FileSystem where
  entries := [(["desk"], .directory),
    (["desk", "vpd.toml"], .file ⟨("lenient = true\nnamespace = [\"site\", \"vpd\"]\n" ++
      "extra_properties = [\"objects.yaml\"]\n" ++
      "[writefru]\ninput = \"board.yaml\"\noutput = \"board.hpp\"\n").toUTF8.toList, 0o644⟩)]
  workingDirectory := ["desk"]

/-- On the desk the command line moves one header and takes the namespace away. All else is as the
file says, or standard. -/
theorem resolves_by_precedence_on_desk :
    let flags : Invocation :=
      ⟨.writeFru, some "vpd.toml", none, some "gen/fru.hpp", some " ", false, false⟩
    desk.settings? flags.config = some ⟨some ["site", "vpd"], some true,
      ⟨some "board.yaml", some "board.hpp"⟩, ⟨some "objects.yaml", none⟩⟩ ∧
    ∃ c, Ends ((disk noFaults).resolveConfig flags) desk (.ok c) desk ∧
      c.paths .writeFru = ⟨"board.yaml", "gen/fru.hpp"⟩ ∧
      c.paths .extraProperties = ⟨"objects.yaml", "extra-properties.hpp"⟩ ∧
      c.scope = [] ∧ c.policy = .skip := by
  intro flags
  have hsettings : desk.settings? flags.config = some ⟨some ["site", "vpd"], some true,
      ⟨some "board.yaml", some "board.hpp"⟩, ⟨some "objects.yaml", none⟩⟩ := by decide +kernel
  have haccepted : ¬desk.IsRefused flags := by
    rw [← configured?_eq_none_iff, configured?_eq, hsettings]
    decide +kernel
  obtain ⟨r, hends, hrefused, hlayered⟩ := resolves_by_precedence noFaults desk flags
  refine ⟨hsettings, ?_⟩
  cases r with
  | error failure => exact absurd (hrefused.mp ⟨failure, rfl⟩) haccepted
  | ok c =>
    obtain ⟨s, hs, h⟩ := hlayered c rfl
    obtain rfl := Option.some.inj (hsettings.symm.trans hs)
    have hother : Target.extraProperties ≠ flags.target := by decide
    exact ⟨c, hends, congrArg₂ Paths.mk h.input h.output,
      congrArg₂ Paths.mk (h.otherInput _ hother) (h.otherOutput _ hother),
      h.blankScope " " rfl (by decide), h.policy.mpr (.inr rfl)⟩

end VpdHeaders
