import PipeShell.Config.Loader
import PipeShell.Proofs.ParserSteps

namespace PipeShell.Config

def Setting.part : Setting → Section
  | .homeDirectory | .workingDirectory => .paths
  | .maxHistory | .ignoreDuplicates => .history
  | .logLevel | .logFile | .logConsole | .logColours | .logCapacity => .logging
  | .showHidden | .maxCandidates => .completion
  | .registerBuiltins | .disabled => .commands

theorem Section.ofName?_eq_some {name : String} {part : Section} :
    Section.ofName? name = some part ↔ part.name = name := by
  constructor
  · intro hfind
    simpa using List.find?_some hfind
  · intro hname
    subst hname
    cases part <;> rfl

theorem Section.name_inj {part other : Section} :
    part.name = other.name ↔ part = other := by
  cases part <;> cases other <;> decide

theorem Section.setting?_eq_some {part : Section} {name : String}
    {setting : Setting} :
    part.setting? name = some setting ↔ setting.part = part ∧
      setting.name = name := by
  constructor
  · intro hfind
    have hmem := List.mem_of_find?_eq_some hfind
    have hname : setting.name = name := by simpa using List.find?_some hfind
    refine ⟨?_, hname⟩
    cases part <;> revert hmem <;> cases setting <;> decide
  · intro ⟨hpart, hname⟩
    subst hpart hname
    cases setting <;> rfl

private theorem Section.dot_notMem_name (part : Section) :
    '.' ∉ part.name.toList := by
  cases part <;> decide

theorem settingAt_dotted (part : Section) (name : String) :
    settingAt (part.name ++ "." ++ name) =
      match part.setting? name with
      | some setting => .ok setting
      | none => .error (.invalidKey (part.name ++ "." ++ name)) := by
  have hcut : Text.cutChars '.' (part.name ++ "." ++ name).toList =
      (part.name.toList, some name.toList) := by
    simpa using Text.cutChars_append part.dot_notMem_name name.toList
  have hpart : Section.ofName? part.name = some part :=
    Section.ofName?_eq_some.mpr rfl
  rw [settingAt, hcut]
  cases hsetting : part.setting? name with
  | none => simp only [String.ofList_toList, hpart, Option.bind_some, hsetting]
  | some setting =>
      simp only [String.ofList_toList, hpart, Option.bind_some, hsetting]

private theorem lookup?_dotted (config : Config) (part : Section) (name : String) :
    config.lookup? (part.name ++ "." ++ name) = (part.setting? name).map
      config.get := by
  have hdot : Text.contains (part.name ++ "." ++ name) '.' = true := by
    simp [Text.contains]
  rw [lookup?, if_pos hdot, settingAt_dotted]
  cases part.setting? name <;> rfl

theorem ext_get {config other : Config}
    (h : ∀ setting, config.get setting = other.get setting) :
    config = other := by
  cases config
  cases other
  congr
  funext setting
  exact h setting

theorem set_set_get (config : Config) (setting : Setting) (value : Json) :
    (config.set setting value).set setting (config.get setting) = config := by
  apply ext_get
  intro other
  by_cases h : other = setting
  · rw [h, get_set_self]
  · rw [get_set_of_ne _ _ h, get_set_of_ne _ _ h]

theorem validate_eq_ok {config : Config} :
    config.validate = .ok () ↔ config.defect? = none := by
  cases hdefect : config.defect? <;> simp [validate, hdefect]

theorem validate_default : validate default = .ok () :=
  validate_eq_ok.mpr (by decide +kernel)

/-- The values that the fields of an object give to a setting, in their order. -/
def valuesIn (setting : Setting) (fields : Table Json) : List Json :=
  fields.filterMap fun (name, value) => if name = setting.name then some value
    else none

def valuesFor (setting : Setting) : Json → List Json
  | .object sections => sections.flatMap fun
      | (name, .object fields) =>
          if name = setting.part.name then valuesIn setting fields else []
      | _ => []
  | _ => []

/-- The defaults, with what data gives in place of some. -/
def overridden (data : Json) : Config :=
  ⟨fun setting => (valuesFor setting data).getLast?.getD setting.default⟩

/-- An entry that names a section and has settings of that section only. -/
def Known : String × Json → Prop
  | (name, .object fields) => ∃ part : Section, part.name = name ∧
      ∀ field ∈ fields, ∃ setting : Setting, setting.part = part ∧
        setting.name = field.1
  | _ => False

def Recognised : Json → Prop
  | .object sections => ∀ entry ∈ sections, Known entry
  | _ => False

private theorem getD_getLast?_append (first second : List Json) (value : Json) :
    (first ++ second).getLast?.getD value =
      second.getLast?.getD (first.getLast?.getD value) := by
  rw [List.getLast?_append]
  cases second.getLast? <;> rfl

private theorem valuesFor_cons (setting : Setting) (part : Section)
    (fields rest : Table Json) :
    valuesFor setting (.object ((part.name, .object fields) :: rest)) =
      (if setting.part = part then valuesIn setting fields else []) ++
        valuesFor setting (.object rest) := by
  simp only [valuesFor, List.flatMap_cons, Section.name_inj, eq_comm]

private theorem loadFields_get {part : Section} {fields : Table Json}
    (config : Config) (setting : Setting) :
    (loadFields part config fields).get setting =
      (if setting.part = part then valuesIn setting fields else []).getLast?.getD
        (config.get setting) := by
  induction fields generalizing config with
  | nil => simp [loadFields, valuesIn]
  | cons field rest ih =>
      obtain ⟨name, value⟩ := field
      -- The field is one of the setting's own exactly where its name finds the
      -- setting.
      have hown : setting.part = part →
          (name = setting.name ↔ part.setting? name = some setting) := by
        intro hpart
        rw [Section.setting?_eq_some]
        simp [hpart, eq_comm]
      cases hfind : part.setting? name with
      | none =>
          rw [loadFields, hfind]
          simp only [ih]
          by_cases hpart : setting.part = part
          · simp [valuesIn, hpart, hown hpart, hfind]
          · simp [hpart]
      | some written =>
          rw [loadFields, hfind]
          simp only [ih]
          by_cases hself : written = setting
          · obtain ⟨hpart, hname⟩ := Section.setting?_eq_some.mp hfind
            subst hself
            simp [valuesIn, hpart, hname, List.getLast?_cons]
          · rw [get_set_of_ne _ _ (Ne.symm hself)]
            by_cases hpart : setting.part = part
            · simp [valuesIn, hpart, hown hpart, hfind, hself]
            · simp [hpart]

private theorem loadSection_eq_ok {part : Section} {config after : Config}
    {fields : Table Json} :
    loadSection part config fields = .ok after ↔
      Known (part.name, .object fields) ∧ after = loadFields part config fields := by
  have hnone : (fields.find? fun (name, _) => (part.setting? name).isNone) = none ↔
      Known (part.name, .object fields) := by
    simp [Known, List.find?_eq_none, Option.ne_none_iff_exists',
      Section.setting?_eq_some, Section.name_inj]
  rw [← hnone]
  unfold loadSection
  split
  · next hfind => simp [hfind]
  · next hfind => simp [hfind, eq_comm]

private theorem loadSections_eq_ok {sections : Table Json} {config after : Config} :
    loadSections config sections = .ok after ↔
      Recognised (.object sections) ∧ ∀ setting, after.get setting =
        (valuesFor setting (.object sections)).getLast?.getD
        (config.get setting) := by
  induction sections generalizing config with
  | nil =>
      simp only [loadSections, Except.ok.injEq, Recognised, valuesFor,
        List.flatMap_nil]
      constructor
      · intro h
        simp [h]
      · rintro ⟨-, h⟩
        exact ext_get fun setting => (h setting).symm
  | cons entry rest ih =>
      obtain ⟨name, value⟩ := entry
      have hall : Recognised (.object ((name, value) :: rest)) ↔
          Known (name, value) ∧ Recognised (.object rest) := by
        simp [Recognised]
      rw [hall, loadSections]
      cases hpart : Section.ofName? name with
      | none =>
          have hunknown : ¬ Known (name, value) := by
            intro hknown
            cases value with
            | object fields =>
                obtain ⟨part, hname, _⟩ := hknown
                rw [Section.ofName?_eq_some.mpr hname] at hpart
                cases hpart
            | _ => exact hknown
          simp [hunknown]
      | some part =>
          have hname := Section.ofName?_eq_some.mp hpart
          subst hname
          cases value with
          | object fields =>
              simp only [valuesFor_cons, getD_getLast?_append, ← loadFields_get]
              cases hload : loadSection part config fields with
              | error defect =>
                  have hunknown : ¬ Known (part.name, .object fields) := by
                    intro hknown
                    rw [loadSection_eq_ok.mpr ⟨hknown, rfl⟩] at hload
                    cases hload
                  simp [hunknown]
              | ok loaded =>
                  obtain ⟨hknown, rfl⟩ := loadSection_eq_ok.mp hload
                  simp only [ih, hknown, true_and]
          | _ => simp [Known]

theorem ofJson_eq_ok {data : Json} {config : Config} :
    ofJson data = .ok config ↔
      Recognised data ∧ (overridden data).validate = .ok () ∧
        config = overridden data := by
  cases data with
  | object sections =>
      have hloaded : ∀ loaded, loadSections default sections = .ok loaded ↔
          Recognised (.object sections) ∧
            loaded = overridden (.object sections) := by
        intro loaded
        rw [loadSections_eq_ok]
        refine and_congr_right fun _ => ⟨fun h => ext_get h, ?_⟩
        intro h setting
        rw [h]
        rfl
      cases hload : loadSections default sections with
      | error defect =>
          have hunknown : ¬ Recognised (.object sections) := by
            intro hknown
            rw [(hloaded _).mpr ⟨hknown, rfl⟩] at hload
            cases hload
          simp [ofJson, hload, hunknown, bind, Except.bind]
      | ok loaded =>
          obtain ⟨hknown, rfl⟩ := (hloaded _).mp hload
          cases hvalid : (overridden (.object sections)).validate <;>
            simp [ofJson, hload, hknown, hvalid, bind, Except.bind, pure,
              Except.pure, eq_comm]
  | _ => simp [ofJson, Recognised]

namespace Loader

/-- A call that may change what a loader holds. The key of a setting is a section's
name, a dot and any text. -/
inductive Call where
  | load (data : Json)
  | set (part : Section) (name : String) (value : Json)

def dotted (part : Section) (name : String) : String := part.name ++ "." ++ name

def perform (loader : Loader) : Call → Except Fault Unit × Loader
  | .load data =>
      match loadData data with
      | .ok loaded => (.ok (), loaded)
      | .error fault => (.error fault, loader)
  | .set part name value =>
      let (outcome, after) := loader.assign (dotted part name) value
      (failing outcome, after)

def run (loader : Loader) (calls : List Call) : Loader :=
  calls.foldl (fun loader call => (loader.perform call).2) loader

/-- The names of the call are known, and the settings it leads to are valid. -/
def Accepts (loader : Loader) : Call → Prop
  | .load data => Recognised data ∧ (overridden data).validate = .ok ()
  | .set part name value => ∃ setting : Setting, setting.part = part ∧
        setting.name = name ∧
      (loader.config.set setting value).validate = .ok ()

def Changes (before after : Config) : Call → Prop
  | .load data => after = overridden data
  | .set part name value => after.lookup? (dotted part name) = some value ∧
      ∀ other text, (other, text) ≠ (part, name) →
        after.lookup? (dotted other text) = before.lookup? (dotted other text)

theorem perform_load (loader : Loader) (data : Json) :
    (∃ config, ofJson data = .ok config ∧
      loader.perform (.load data) = (.ok (), .given config)) ∨
      ∃ defect, ofJson data = .error defect ∧
        loader.perform (.load data) =
          (.error (.failure defect.toFailure), loader) := by
  cases hdata : ofJson data with
  | ok config =>
      left
      exact ⟨config, rfl, by simp [perform, loadData, hdata, failing, Except.map]⟩
  | error defect =>
      right
      exact ⟨defect, rfl, by simp [perform, loadData, hdata, failing, Except.map]⟩

private theorem perform_set_unknown (loader : Loader) {part : Section}
    {name : String} (hunknown : part.setting? name = none) (value : Json) :
    loader.perform (.set part name value) =
      (.error (.failure (Defect.invalidKey (dotted part name)).toFailure),
        loader) := by
  have hkey : settingAt (dotted part name) =
      .error (.invalidKey (dotted part name)) := by
    rw [dotted, settingAt_dotted, hunknown]
  simp only [perform, assign, hkey, failing]

private theorem perform_set (loader : Loader) {part : Section} {name : String}
    {setting : Setting} (hsetting : part.setting? name = some setting)
    (value : Json) : loader.perform (.set part name value) =
      match (loader.config.set setting value).validate with
      | .ok () => (.ok (), { loader with config := loader.config.set setting value })
      | .error defect => (.error (.failure defect.toFailure), loader) := by
  have hkey : settingAt (dotted part name) = .ok setting := by
    rw [dotted, settingAt_dotted, hsetting]
  simp only [perform, assign, hkey]
  cases (loader.config.set setting value).validate with
  | ok _ => rfl
  | error defect => simp only [set_set_get, failing]

private theorem changes_set {config : Config} {part : Section} {name : String}
    {setting : Setting} (hsetting : part.setting? name = some setting)
    (value : Json) :
    Changes config (config.set setting value) (.set part name value) := by
  refine ⟨?_, ?_⟩
  · rw [dotted, lookup?_dotted, hsetting, Option.map_some, get_set_self]
  · intro other text hother
    simp only [dotted, lookup?_dotted]
    cases hfind : other.setting? text with
    | none => rfl
    | some found =>
        obtain ⟨hpart, hname⟩ := Section.setting?_eq_some.mp hsetting
        obtain ⟨hpart', hname'⟩ := Section.setting?_eq_some.mp hfind
        have hne : found ≠ setting := by
          intro h
          apply hother
          rw [← hpart, ← hname, ← hpart', ← hname', h]
        rw [Option.map_some, Option.map_some, get_set_of_ne _ _ hne]

/-- A call is accepted, leads to valid settings and changes what it should, or it is
refused and changes nothing. -/
theorem perform_cases (loader : Loader) (call : Call) :
    (loader.Accepts call ∧ ∃ after, loader.perform call = (.ok (), after) ∧
      after.config.validate = .ok () ∧ Changes loader.config after.config call) ∨
    (¬ loader.Accepts call ∧ ∃ defect : Defect,
      loader.perform call = (.error (.failure defect.toFailure), loader)) := by
  cases call with
  | load data =>
      rcases loader.perform_load data with
        ⟨config, hdata, hperform⟩ | ⟨defect, hdata, hperform⟩
      · obtain ⟨hknown, hvalid, rfl⟩ := ofJson_eq_ok.mp hdata
        exact .inl ⟨⟨hknown, hvalid⟩, _, hperform, hvalid, rfl⟩
      · refine .inr ⟨?_, defect, hperform⟩
        intro ⟨hknown, hvalid⟩
        rw [ofJson_eq_ok.mpr ⟨hknown, hvalid, rfl⟩] at hdata
        cases hdata
  | set part name value =>
      cases hfind : part.setting? name with
      | none =>
          refine .inr ⟨?_, _, loader.perform_set_unknown hfind value⟩
          intro ⟨setting, hpart, hname, _⟩
          rw [Section.setting?_eq_some.mpr ⟨hpart, hname⟩] at hfind
          cases hfind
      | some setting =>
          obtain ⟨hpart, hname⟩ := Section.setting?_eq_some.mp hfind
          have hperform := loader.perform_set hfind value
          cases hvalid : (loader.config.set setting value).validate with
          | ok _ =>
              rw [hvalid] at hperform
              exact .inl ⟨⟨setting, hpart, hname, hvalid⟩, _, hperform, hvalid,
                changes_set hfind value⟩
          | error defect =>
              rw [hvalid] at hperform
              refine .inr ⟨?_, defect, hperform⟩
              intro ⟨other, hpart', hname', hvalid'⟩
              rw [Section.setting?_eq_some.mpr ⟨hpart', hname'⟩] at hfind
              cases hfind
              rw [hvalid] at hvalid'
              cases hvalid'

theorem validate_run {loader : Loader} (hvalid : loader.config.validate = .ok ())
    (calls : List Call) : (loader.run calls).config.validate = .ok () := by
  induction calls generalizing loader with
  | nil => exact hvalid
  | cons call rest ih =>
      apply @ih (loader.perform call).2
      rcases loader.perform_cases call with
        ⟨_, after, hperform, hafter, _⟩ | ⟨_, _, hperform⟩
      · rw [hperform]
        exact hafter
      · rw [hperform]
        exact hvalid

/-- After any run of calls the settings are valid. The next call succeeds exactly if
its names are known and what it leads to is valid; then it changes what it names and
nothing else. If it fails, the loader is as it was. -/
theorem run_valid_and_atomic (calls : List Call) (call : Call) :
    let loader := run new calls
    let answer := loader.perform call
    loader.config.validate = .ok () ∧
      (answer.1 = .ok () ↔ loader.Accepts call) ∧
      (answer.1 = .ok () → Changes loader.config answer.2.config call) ∧
      (answer.1 ≠ .ok () → answer.2 = loader ∧
        ∃ defect : Defect, answer.1 = .error (.failure defect.toFailure)) := by
  intro loader answer
  refine ⟨validate_run validate_default calls, ?_⟩
  rcases loader.perform_cases call with
    ⟨haccepts, after, hperform, _, hchanges⟩ | ⟨hrefuses, defect, hperform⟩
  · have hanswer : answer = (.ok (), after) := hperform
    simp [hanswer, haccepts, hchanges]
  · have hanswer : answer = (.error (.failure defect.toFailure), loader) := hperform
    refine ⟨by simp [hanswer, hrefuses], by simp [hanswer], ?_⟩
    intro _
    rw [hanswer]
    exact ⟨rfl, defect, rfl⟩

/-- A length of three is taken over by data and stays when a level that does not
exist is refused. -/
theorem run_valid_and_atomic_refused :
    let short := Call.load (.object [("history", .object [("max_size", .int 3)])])
    let loud := Call.set .logging "level" (.text "LOUD")
    ((run new [short]).perform loud).1 ≠ .ok () ∧
      ((run new [short]).perform loud).2 = run new [short] ∧
      (run new []).Accepts short ∧
      Changes (run new []).config ((run new []).perform short).2.config short := by
  intro short loud
  have hshort : (run new []).Accepts short := by
    refine ⟨?_, validate_eq_ok.mpr (by decide +kernel)⟩
    intro entry hentry
    rw [List.mem_singleton] at hentry
    subst hentry
    refine ⟨.history, rfl, ?_⟩
    intro field hfield
    rw [List.mem_singleton] at hfield
    subst hfield
    exact ⟨.maxHistory, rfl, rfl⟩
  have hloud : ¬ (run new [short]).Accepts loud := by
    intro ⟨setting, hpart, hname, hvalid⟩
    have hlevel : setting = .logLevel := by
      revert hpart hname
      cases setting <;> decide
    subst hlevel
    exact absurd (validate_eq_ok.mp hvalid) (by decide +kernel)
  have hrefused := run_valid_and_atomic [short] loud
  have haccepted := run_valid_and_atomic [] short
  have hfails : ((run new [short]).perform loud).1 ≠ .ok () :=
    fun h => hloud (hrefused.2.1.mp h)
  exact ⟨hfails, (hrefused.2.2.2 hfails).1, hshort,
    haccepted.2.2.1 (haccepted.2.1.mpr hshort)⟩

end Loader

end PipeShell.Config
