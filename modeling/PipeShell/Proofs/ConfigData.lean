import PipeShell.Proofs.Settings
import PipeShell.Proofs.Tables

namespace PipeShell

/-- The value under a name inside the object under another name. -/
def Json.within? (data : Json) (part name : String) : Option Json :=
  (data.field? part).bind (·.field? name)

namespace Config

/-- No name stands twice in the data, nor in one of its sections. -/
def Distinct : Json → Prop
  | .object sections => (Table.keys sections).Nodup ∧
      ∀ name fields, (name, .object fields) ∈ sections → (Table.keys fields).Nodup
  | _ => True

private theorem valuesIn_eq {fields : Table Json} (hdistinct : fields.keys.Nodup)
    (setting : Setting) :
    valuesIn setting fields = (Table.get? setting.name fields).toList := by
  have hflat : valuesIn setting fields =
      fields.flatMap fun field => if field.1 = setting.name then [field.2]
        else [] := by
    rw [valuesIn, List.filterMap_eq_flatMap_toList]
    congr 1
    funext field
    obtain ⟨name, value⟩ := field
    by_cases hname : name = setting.name <;> simp [hname]
  rw [hflat, Table.flatMap_get? hdistinct setting.name fun value => [value]]
  cases Table.get? setting.name fields <;> rfl

def valuesInside (setting : Setting) : Json → List Json
  | .object fields => valuesIn setting fields
  | _ => []

private theorem valuesFor_eq {data : Json} (hdistinct : Distinct data)
    (setting : Setting) :
    valuesFor setting data =
      (data.within? setting.part.name setting.name).toList := by
  cases data with
  | object sections =>
      obtain ⟨hsections, hfields⟩ := hdistinct
      have hflat : valuesFor setting (.object sections) =
          sections.flatMap fun entry =>
            if entry.1 = setting.part.name then valuesInside setting entry.2
              else [] := by
        rw [valuesFor]
        congr 1
        funext entry
        obtain ⟨name, value⟩ := entry
        cases value with
        | object fields => rfl
        | _ => simp [valuesInside]
      rw [hflat, Table.flatMap_get? hsections, Json.within?, Json.field?]
      cases hfind : Table.get? setting.part.name sections with
      | none => rfl
      | some value =>
          cases value with
          | object fields =>
              exact valuesIn_eq (hfields _ _ (Table.mem_of_get? hfind)) setting
          | _ => rfl
  | _ => rfl

theorem Recognised.setting {data : Json} (hknown : Recognised data)
    {part name : String} {value : Json}
    (hvalue : data.within? part name = some value) :
    ∃ setting : Setting, setting.part.name = part ∧ setting.name = name := by
  obtain ⟨content, hpart, hname⟩ := Option.bind_eq_some_iff.mp hvalue
  cases data with
  | object sections =>
      have hentry := hknown _ (Table.mem_of_get? hpart)
      cases content with
      | object fields =>
          obtain ⟨owner, rfl, hfields⟩ := hentry
          obtain ⟨setting, hsetting, hfield⟩ := hfields _ (Table.mem_of_get? hname)
          exact ⟨setting, congrArg Section.name hsetting, hfield⟩
      | _ => exact hentry.elim
  | _ => exact hknown.elim

theorem within?_toJson (config : Config) (part name : String) :
    config.toJson.within? part name =
      (Section.ofName? part).bind fun part =>
      (part.setting? name).map config.get := by
  have hpart : config.toJson.field? part = (Section.ofName? part).map
      config.sectionJson :=
    Table.get?_map Section.name config.sectionJson part Section.all
  have hname (part : Section) :
      (config.sectionJson part).field? name = (part.setting? name).map config.get :=
    Table.get?_map Setting.name config.get name part.settings
  rw [Json.within?, hpart, Option.bind_map]
  congr 1
  funext part
  exact hname part

theorem within?_toJson_setting (config : Config) (setting : Setting) :
    config.toJson.within? setting.part.name setting.name =
      some (config.get setting) := by
  rw [within?_toJson, Section.ofName?_eq_some.mpr rfl, Option.bind_some,
    Section.setting?_eq_some.mpr ⟨rfl, rfl⟩, Option.map_some]

private theorem part_of_mem_settings {part : Section} {setting : Setting}
    (hmem : setting ∈ part.settings) :
    setting.part = part := by
  cases part <;> revert hmem <;> cases setting <;> decide

theorem recognised_toJson (config : Config) : Recognised config.toJson := by
  intro entry hentry
  obtain ⟨part, -, rfl⟩ := List.mem_map.mp hentry
  refine ⟨part, rfl, fun field hfield => ?_⟩
  obtain ⟨setting, hsetting, rfl⟩ := List.mem_map.mp hfield
  exact ⟨setting, part_of_mem_settings hsetting, rfl⟩

private theorem distinct_toJson (config : Config) : Distinct config.toJson := by
  refine ⟨?_, ?_⟩
  · rw [Table.keys, List.map_map]
    change (Section.all.map Section.name).Nodup
    decide
  · intro name fields hmem
    obtain ⟨part, -, hentry⟩ := List.mem_map.mp hmem
    cases hentry
    rw [Table.keys, List.map_map]
    change (part.settings.map Setting.name).Nodup
    cases part <;> decide

theorem overridden_get {data : Json} (hdistinct : Distinct data)
    (setting : Setting) : (overridden data).get setting =
      (data.within? setting.part.name setting.name).getD setting.default := by
  change (valuesFor setting data).getLast?.getD setting.default = _
  rw [valuesFor_eq hdistinct]
  cases data.within? setting.part.name setting.name <;> rfl

theorem ofJson_toJson {config : Config} (hvalid : config.validate = .ok ()) :
    ofJson config.toJson = .ok config := by
  have hsame : overridden config.toJson = config := by
    apply ext_get
    intro setting
    rw [overridden_get config.distinct_toJson, within?_toJson_setting]
    rfl
  rw [ofJson_eq_ok, hsame]
  exact ⟨config.recognised_toJson, hvalid, rfl⟩

theorem within?_toJson_of_ofJson {data : Json} {config : Config}
    (hdistinct : Distinct data) (hload : ofJson data = .ok config)
    (part name : String) : config.toJson.within? part name =
      (data.within? part name).or (default.toJson.within? part name) := by
  obtain ⟨hknown, -, rfl⟩ := ofJson_eq_ok.mp hload
  by_cases hsetting : ∃ setting : Setting, setting.part.name = part ∧
    setting.name = name
  · obtain ⟨setting, rfl, rfl⟩ := hsetting
    rw [within?_toJson_setting, within?_toJson_setting, overridden_get hdistinct]
    cases data.within? setting.part.name setting.name <;> rfl
  · have hopen (data : Json) (hknown : Recognised data) :
        data.within? part name = none :=
      Option.eq_none_iff_forall_ne_some.mpr fun _ hvalue =>
        hsetting (hknown.setting hvalue)
    rw [hopen _ (recognised_toJson _), hopen data hknown,
      hopen _ (recognised_toJson _)]
    rfl

namespace Loader

/-- Loaders that have come from the default one by loading data and by writing
settings, whether that was accepted or not. -/
inductive Edited : Loader → Prop
  | new : Edited new
  | load {loader : Loader} (hedited : Edited loader) (data : Json) :
      Edited (loader.perform (.load data)).2
  | set {loader : Loader} (hedited : Edited loader) (key : String) (value : Json) :
      Edited (loader.assign key value).2

private theorem validate_assign {loader : Loader}
    (hvalid : loader.config.validate = .ok ()) (key : String) (value : Json) :
    (loader.assign key value).2.config.validate = .ok () := by
  unfold assign
  split
  · exact hvalid
  · next setting hsetting =>
      dsimp only
      split
      · next hwritten => exact hwritten
      · rw [set_set_get]
        exact hvalid

private theorem Edited.validate {loader : Loader} (hedited : Edited loader) :
    loader.config.validate = .ok () := by
  induction hedited with
  | new => exact validate_default
  | load hedited data ih => exact validate_run ih [.load data]
  | set hedited key value ih => exact validate_assign ih key value

private theorem perform_load_of_ofJson {data : Json} {config : Config}
    (hload : ofJson data = .ok config) (loader : Loader) :
    loader.perform (.load data) = (.ok (), given config) := by
  rcases loader.perform_load data with
    ⟨other, hother, hperform⟩ | ⟨defect, hdefect, -⟩
  · rw [hload] at hother
    cases hother
    exact hperform
  · rw [hload] at hdefect
    cases hdefect

/-- Whatever loads and edits have led to, what it is saved as is accepted by every
loader and leads to the same settings, which are then saved as the same data. And
whatever data a loader accepts, what is saved after it has the values of the data,
and the defaults where the data has none. -/
theorem saved_loads_back {loader : Loader} (hedited : Edited loader)
    (other : Loader) :
    other.perform (.load loader.config.toJson) = (.ok (), given loader.config) ∧
      (other.perform (.load loader.config.toJson)).2.config.toJson =
        loader.config.toJson ∧
      ∀ data loaded, Distinct data → other.perform (.load data) = (.ok (), loaded) →
        ∀ part name, loaded.config.toJson.within? part name =
          (data.within? part name).or (default.toJson.within? part name) := by
  have hback := perform_load_of_ofJson (ofJson_toJson hedited.validate) other
  refine ⟨hback, by rw [hback]; rfl, ?_⟩
  intro data loaded hdistinct hperform
  rcases other.perform_load data with ⟨config, hload, hgiven⟩ | ⟨defect, -, hrefused⟩
  · rw [hgiven] at hperform
    cases hperform
    exact within?_toJson_of_ofJson hdistinct hload
  · rw [hrefused] at hperform
    cases hperform

/-- Data with a limit and with a home directory that is a list, which loading does
not mind. -/
def sampleData : Json :=
  .object [("history", .object [("max_size", .int 3)]),
    ("paths", .object [("home_directory", .list [.null, .real .notANumber])])]

theorem saved_loads_back_sample :
    let loaded := (new.perform (.load sampleData)).2
    let edited := (loaded.assign "logging.level" (.text "debug")).2
    Edited edited ∧ new.perform (.load edited.config.toJson) =
      (.ok (), given edited.config) ∧
      Distinct sampleData ∧ new.perform (.load sampleData) = (.ok (), loaded) ∧
      loaded.config.toJson.within? "history" "max_size" = some (.int 3) ∧
      loaded.config.toJson.within? "history" "ignore_consecutive_duplicates" =
        some (.bool true) := by
  intro loaded edited
  have hedited : Edited edited :=
    .set (.load .new sampleData) "logging.level" (.text "debug")
  have hdistinct : Distinct sampleData := by
    refine ⟨by decide, fun name fields hmem => ?_⟩
    simp only [List.mem_cons, Prod.mk.injEq, Json.object.injEq, List.not_mem_nil,
      or_false] at hmem
    rcases hmem with ⟨-, rfl⟩ | ⟨-, rfl⟩ <;> decide
  have hloaded : new.perform (.load sampleData) = (.ok (), loaded) := rfl
  obtain ⟨hback, -, hloads⟩ := saved_loads_back hedited new
  have hsaved := hloads sampleData loaded hdistinct hloaded
  exact ⟨hedited, hback, hdistinct, hloaded, hsaved "history" "max_size",
    hsaved "history" "ignore_consecutive_duplicates"⟩

end Loader

end Config

end PipeShell
