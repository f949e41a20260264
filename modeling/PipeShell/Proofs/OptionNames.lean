import Mathlib.Data.List.Pairwise
import PipeShell.Proofs.BuiltinBinding

namespace PipeShell

def OptionSchema.Apart (left right : OptionSchema) : Prop :=
  Text.lower left.long ≠ Text.lower right.long ∧ ∀ c, left.short = some c →
    right.short ≠ some c

instance : Std.Symm OptionSchema.Apart where
  symm _ _ hapart := ⟨hapart.1.symm, fun c hright hleft => hapart.2 c hleft hright⟩

def CommandSchema.NamesApart (schema : CommandSchema) : Prop :=
  schema.options.Pairwise OptionSchema.Apart

namespace CommandSchema.NamesApart

variable {schema : CommandSchema} {left right : OptionSchema}

theorem eq_of_not_apart (hnames : schema.NamesApart) (hleft : left ∈ schema.options)
    (hright : right ∈ schema.options) (hsame : ¬left.Apart right) :
    left = right := by
  by_contra hne
  exact hsame (List.Pairwise.forall hnames hleft hright hne)

theorem eq_of_long (hnames : schema.NamesApart) (hleft : left ∈ schema.options)
    (hright : right ∈ schema.options)
    (hlong : Text.lower left.long = Text.lower right.long) : left = right :=
  hnames.eq_of_not_apart hleft hright fun hapart => hapart.1 hlong

private theorem eq_of_short (hnames : schema.NamesApart)
    (hleft : left ∈ schema.options) (hright : right ∈ schema.options) {name : String}
    (hleftName : shortName left = some name)
    (hrightName : shortName right = some name) : left = right := by
  obtain ⟨c, hc, rfl⟩ := Option.map_eq_some_iff.mp hleftName
  obtain ⟨d, hd, hsame⟩ := Option.map_eq_some_iff.mp hrightName
  obtain rfl : d = c := by
    have hchars := String.ofList_injective hsame
    exact List.singleton_inj.mp hchars
  exact hnames.eq_of_not_apart hleft hright fun hapart => hapart.2 d hc hd

end CommandSchema.NamesApart

namespace CommandDeclaration

variable {command : String} {longs : List String} {shorts : List Char}
  {option : OptionSchema}
  {options : List OptionSchema}

private theorem checkNames_cons
    (hcheck : checkNames command longs shorts (option :: options) = .ok ()) :
    Text.lower option.long ∉ longs ∧ (∀ c, option.short = some c → c ∉ shorts) ∧
      checkNames command (Text.lower option.long :: longs)
        (option.short.toList ++ shorts) options =
        .ok () := by
  rw [checkNames] at hcheck
  by_cases hlong : longs.contains (Text.lower option.long) = true
  · simp only [if_pos hlong] at hcheck
    cases hcheck
  · simp only [if_neg hlong] at hcheck
    refine ⟨by simpa using hlong, ?_⟩
    cases hshort : option.short with
    | none =>
        simp only [hshort] at hcheck
        exact ⟨nofun, hcheck⟩
    | some short =>
        simp only [hshort] at hcheck
        by_cases hused : shorts.contains short = true
        · simp only [if_pos hused] at hcheck
          cases hcheck
        · simp only [if_neg hused] at hcheck
          refine ⟨?_, hcheck⟩
          rintro c ⟨⟩
          simpa using hused

/-- The check passes options that differ from each other and from the names before
them. -/
theorem checkNames_ok (hcheck : checkNames command longs shorts options = .ok ()) :
    options.Pairwise OptionSchema.Apart ∧
      ∀ option ∈ options,
        Text.lower option.long ∉ longs ∧ ∀ c, option.short = some c →
          c ∉ shorts := by
  induction options generalizing longs shorts with
  | nil => exact ⟨.nil, fun option hmember => absurd hmember List.not_mem_nil⟩
  | cons option rest ih =>
      obtain ⟨hlong, hshort, hrest⟩ := checkNames_cons hcheck
      obtain ⟨hpairwise, hfresh⟩ := ih hrest
      refine ⟨List.pairwise_cons.mpr ⟨fun other hother => ⟨?_, fun c hc hsame => ?_⟩,
        hpairwise⟩, List.forall_mem_cons.mpr ⟨⟨hlong, hshort⟩, fun other hother =>
          ⟨?_, fun c hc hused => ?_⟩⟩⟩
      · intro hsame
        exact (hfresh other hother).1 (hsame ▸ List.mem_cons_self)
      · exact (hfresh other hother).2 c hsame (by simp [hc])
      · exact fun hused => (hfresh other hother).1 (List.mem_cons_of_mem _ hused)
      · exact (hfresh other hother).2 c hc (List.mem_append_right _ hused)

theorem toSchema_ok {declaration : CommandDeclaration} {schema : CommandSchema}
    (hschema : declaration.toSchema = .ok schema) :
    declaration.validName = .ok schema.name ∧
      declaration.options.mapM (validOption schema.name) = .ok schema.options ∧
      checkNames schema.name [] [] schema.options = .ok () := by
  unfold toSchema at hschema
  by_cases habstract : (declaration.isAbstract && declaration.factory.isItself) =
    true
  · rw [if_pos habstract] at hschema
    cases hschema
  · rw [if_neg habstract] at hschema
    obtain ⟨name, hname, hschema⟩ := exists_of_bind_ok hschema
    obtain ⟨options, hoptions, hschema⟩ := exists_of_bind_ok hschema
    obtain ⟨_, hcheck, hschema⟩ := exists_of_bind_ok hschema
    cases hschema
    exact ⟨hname, hoptions, hcheck⟩

end CommandDeclaration

theorem Registry.toSchema_of_register {registry registered : Registry}
    {registrant : Registrant} {schema : CommandSchema} {notes : List Journal.Note}
    (hregister : registry.register registrant = .ok (schema, registered, notes)) :
    registered = (registry.add schema).1 ∧
      ∃ declaration : CommandDeclaration, declaration.toSchema = .ok schema := by
  unfold Registry.register at hregister
  cases registrant with
  | command declaration =>
      cases hschema : declaration.toSchema with
      | error error =>
          simp only [Registrant.toSchema, hschema] at hregister
          cases hregister
      | ok found =>
          simp only [Registrant.toSchema, hschema] at hregister
          cases hregister
          exact ⟨rfl, declaration, hschema⟩
  | plainType shown => cases hregister
  | data value => cases hregister

theorem CommandDeclaration.namesApart {declaration : CommandDeclaration}
    {schema : CommandSchema} (hschema : declaration.toSchema = .ok schema) :
    schema.NamesApart :=
  (checkNames_ok (toSchema_ok hschema).2.2).1

namespace Binding

inductive Means (schema : CommandSchema) (occurrence : Occurrence) :
    OptionSchema → Prop
  | long {option : OptionSchema} (hlong : occurrence.isLong = true)
      (hoption : option ∈ schema.options)
      (hname : Text.lower option.long = Text.lower occurrence.name) :
      Means schema occurrence option
  | short {option : OptionSchema} (hshort : occurrence.isLong = false)
      (hoption : option ∈ schema.options)
      (hname : CommandSchema.shortName option = some occurrence.name) :
      Means schema occurrence option
  /-- No option has the short name exactly, and this is the first that matches it
  otherwise. -/
  | folded {option : OptionSchema} {before after : List OptionSchema}
      (hshort : occurrence.isLong = false)
      (hexact : ∀ other ∈ schema.options,
        CommandSchema.shortName other ≠ some occurrence.name)
      (hoptions : schema.options = before ++ option :: after)
      (hname : (CommandSchema.shortName option).map Text.lower =
        some (Text.lower occurrence.name))
      (hfirst : ∀ other ∈ before, (CommandSchema.shortName other).map Text.lower ≠
        some (Text.lower occurrence.name)) :
      Means schema occurrence option

variable {schema : CommandSchema} {occurrence : Occurrence} {option : OptionSchema}

theorem means_of_findOption (hfound : findOption schema occurrence = some option) :
    Means schema occurrence option := by
  have hoption := mem_of_findOption hfound
  unfold findOption at hfound
  cases hlong : occurrence.isLong with
  | true =>
      rw [hlong, if_pos rfl] at hfound
      exact .long hlong hoption (by simpa using List.find?_some hfound)
  | false =>
      rw [hlong, if_neg Bool.false_ne_true, CommandSchema.findShort?] at hfound
      split at hfound
      · next hexact =>
          cases hfound
          exact .short hlong hoption (by simpa using List.find?_some hexact)
      · next hnone =>
          obtain ⟨hname, before, after, hoptions, hfirst⟩ :=
            List.find?_eq_some_iff_append.mp hfound
          refine .folded hlong ?_ hoptions (by simpa using hname) ?_
          · intro other hother
            simpa using List.find?_eq_none.mp hnone other hother
          · intro other hother
            simpa using hfirst other hother

theorem findOption_of_means (hnames : schema.NamesApart)
    (hmeans : Means schema occurrence option) :
    findOption schema occurrence = some option := by
  cases hmeans with
  | long hlong hoption hname =>
      rw [findOption, hlong, if_pos rfl]
      refine find?_eq_some_of_unique hoption (decide_eq_true hname)
        fun other hother hsame => ?_
      exact hnames.eq_of_long hother hoption
        ((of_decide_eq_true hsame).trans hname.symm)
  | short hshort hoption hname =>
      have hexact : schema.options.find?
          (fun other => CommandSchema.shortName other = some occurrence.name) =
            some option :=
        find?_eq_some_of_unique hoption (decide_eq_true hname)
          fun other hother hsame =>
          hnames.eq_of_short hother hoption (of_decide_eq_true hsame) hname
      rw [findOption, hshort, if_neg Bool.false_ne_true,
        CommandSchema.findShort?, hexact]
  | folded hshort hexact hoptions hname hfirst =>
      have hnone : schema.options.find?
          (fun other => CommandSchema.shortName other = some occurrence.name) =
            none :=
        List.find?_eq_none.mpr fun other hother => by simpa using hexact other hother
      rw [findOption, hshort, if_neg Bool.false_ne_true,
        CommandSchema.findShort?, hnone]
      refine List.find?_eq_some_iff_append.mpr
        ⟨decide_eq_true hname, _, _, hoptions, ?_⟩
      intro other hother
      simpa using hfirst other hother

private theorem findOption_eq_some_iff (hnames : schema.NamesApart) :
    findOption schema occurrence = some option ↔ Means schema occurrence option :=
  ⟨means_of_findOption, findOption_of_means hnames⟩

theorem findOption_eq_none_iff (hnames : schema.NamesApart) :
    findOption schema occurrence = none ↔
      ∀ option, ¬Means schema occurrence option := by
  rw [Option.eq_none_iff_forall_ne_some]
  exact forall_congr' fun option => not_congr (findOption_eq_some_iff hnames)

theorem Means.mem (hmeans : Means schema occurrence option) :
    option ∈ schema.options := by
  cases hmeans with
  | long _ hoption | short _ hoption => exact hoption
  | folded _ _ hoptions =>
      rw [hoptions]
      exact List.mem_append_right _ List.mem_cons_self

theorem Means.unique (hnames : schema.NamesApart) {other : OptionSchema}
    (hmeans : Means schema occurrence option)
    (hother : Means schema occurrence other) : option = other :=
  Option.some.inj ((findOption_of_means hnames hmeans).symm.trans
    (findOption_of_means hnames hother))

end Binding

end PipeShell
