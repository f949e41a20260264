import PipeShell.Pipeline

namespace PipeShell

namespace Text

theorem cutChars_of_notMem {separator : Char} {text : List Char}
    (habsent : separator ∉ text) : cutChars separator text = (text, none) := by
  induction text with
  | nil => rfl
  | cons c rest ih =>
      rw [List.mem_cons, not_or] at habsent
      rw [cutChars, if_neg (Ne.symm habsent.1), ih habsent.2]

theorem cutChars_append {separator : Char} {before : List Char}
    (habsent : separator ∉ before) (after : List Char) :
    cutChars separator (before ++ separator :: after) = (before, some after) := by
  induction before with
  | nil => rw [List.nil_append, cutChars, if_pos rfl]
  | cons c rest ih =>
      rw [List.mem_cons, not_or] at habsent
      rw [List.cons_append, cutChars, if_neg (Ne.symm habsent.1), ih habsent.2]

theorem cutChars_none {separator : Char} {text before : List Char}
    (hcut : cutChars separator text = (before, none)) :
    before = text ∧ separator ∉ text := by
  by_cases hmem : separator ∈ text
  · obtain ⟨front, back, rfl, hfront⟩ := List.eq_append_cons_of_mem hmem
    rw [cutChars_append hfront] at hcut
    cases hcut
  · rw [cutChars_of_notMem hmem] at hcut
    cases hcut
    exact ⟨rfl, hmem⟩

theorem cutChars_some {separator : Char} {text before after : List Char}
    (hcut : cutChars separator text = (before, some after)) : separator ∈ text := by
  by_cases hmem : separator ∈ text
  · exact hmem
  · rw [cutChars_of_notMem hmem] at hcut
    cases hcut

end Text

namespace Pipeline

theorem Draft.scan_endOfOptions {token : Token} (hkind : token.kind = .endOfOptions)
    (draft : Draft) (rest : List Token) :
    draft.scan (token :: rest) = draft.endOptions.scan rest := by
  rw [Draft.scan.eq_def]
  simp only [hkind]

theorem Draft.scan_word {draft next : Draft} {token : Token} {rest : List Token}
    (hkind : token.kind = .word)
    (hadd : draft.addWord token rest.head? = .ok (next, false)) :
    draft.scan (token :: rest) = next.scan rest := by
  cases rest with
  | nil =>
      rw [List.head?_nil] at hadd
      rw [Draft.scan.eq_def, Draft.scan.eq_def next]
      simp only [hkind, hadd]
      rfl
  | cons after rest =>
      rw [List.head?_cons] at hadd
      rw [Draft.scan.eq_def]
      simp only [hkind, hadd]

/-- The name of the option that a word names alone and without a value, and whether
it is long. -/
def Shape.lone? : Shape → Option (String × Bool)
  | .long body => if '=' ∈ body then none else some (String.ofList body, true)
  | .short [c] => if c = '=' then none else some (shortName c, false)
  | _ => none

/-- What an option word becomes: either it takes the next token, or none of its
options has the next token as its value. -/
inductive OptionWord (shape : Shape) (next : Option Token) (index : Nat) :
    List Occurrence → Bool → Prop
  | taking {name : String} {isLong : Bool} {value : Token}
      (hlone : shape.lone? = some (name, isLong)) (hnext : next = some value)
      (hvalue : isOptionValue value = true) :
      OptionWord shape next index [.withNext name isLong value index] true
  | plain {name : String} {isLong : Bool}
      (hlone : shape.lone? = some (name, isLong)) :
      OptionWord shape next index [.plain name isLong index] false
  | apart {occurrences : List Occurrence} (hlone : shape.lone? = none)
      (hspaced : ∀ occurrence ∈ occurrences, occurrence.spaced = false) :
      OptionWord shape next index occurrences false

theorem valueFrom_some {next : Option Token} {value : Token}
    (hvalue : valueFrom next = some value) :
    next = some value ∧ isOptionValue value = true :=
  Option.filter_eq_some_iff.mp hvalue

private theorem longOption_ok {token : Token} {body : List Char}
    {next : Option Token} {index : Nat} {occurrence : Occurrence} {taken : Bool}
    (hoption : longOption token body next index = .ok (occurrence, taken)) :
    OptionWord (.long body) next index [occurrence] taken := by
  unfold longOption at hoption
  cases hcut : Text.cutChars '=' body with
  | mk name attached =>
      rw [hcut] at hoption
      cases attached with
      | some value =>
          have hlone : (Shape.long body).lone? = none :=
            if_pos (Text.cutChars_some hcut)
          cases name with
          | nil => cases hoption
          | cons c rest =>
              cases hoption
              exact .apart hlone (by simp [Occurrence.attached])
      | none =>
          obtain ⟨rfl, habsent⟩ := Text.cutChars_none hcut
          have hlone : (Shape.long name).lone? = some (String.ofList name, true) :=
            if_neg habsent
          cases hvalue : valueFrom next with
          | none =>
              simp only [hvalue] at hoption
              cases hoption
              exact .plain hlone
          | some value =>
              simp only [hvalue] at hoption
              cases hoption
              obtain ⟨hnext, hfits⟩ := valueFrom_some hvalue
              exact .taking hlone hnext hfits

private theorem spaced_attachToLast (value : String) (quoted : Bool) (index : Nat)
    (names : List Char) :
    ∀ occurrence ∈ attachToLast value quoted index names,
      occurrence.spaced = false := by
  induction names with
  | nil => simp [attachToLast]
  | cons c rest ih =>
      cases rest with
      | nil => simp [attachToLast, Occurrence.attached]
      | cons d rest =>
          intro occurrence member
          rw [attachToLast, List.mem_cons] at member
          · rcases member with rfl | member
            · rfl
            · exact ih occurrence member
          · exact List.cons_ne_nil d rest

private theorem shortOptions_ok {token : Token} {body : List Char}
    {next : Option Token} {index : Nat} {occurrences : List Occurrence}
    {taken : Bool} (hoption : shortOptions token body next index =
      .ok (occurrences, taken)) :
    OptionWord (.short body) next index occurrences taken := by
  unfold shortOptions at hoption
  cases hcut : Text.cutChars '=' body with
  | mk names attached =>
      rw [hcut] at hoption
      cases attached with
      | some value =>
          have hlone : (Shape.short body).lone? = none := by
            have hmem := Text.cutChars_some hcut
            match body, hmem with
            | [c], hmem => exact if_pos (List.mem_singleton.mp hmem).symm
            | _ :: _ :: _, _ => rfl
          cases names with
          | nil => cases hoption
          | cons c rest =>
              cases hoption
              exact .apart hlone (spaced_attachToLast _ _ _ _)
      | none =>
          obtain ⟨rfl, habsent⟩ := Text.cutChars_none hcut
          match names, habsent with
          | [], _ =>
              cases hoption
              exact .apart rfl (by simp)
          | [c], habsent =>
              have hlone : (Shape.short [c]).lone? = some (shortName c, false) :=
                if_neg fun heq => habsent (List.mem_singleton.mpr heq.symm)
              cases hvalue : valueFrom next with
              | none =>
                  simp only [hvalue] at hoption
                  cases hoption
                  exact .plain hlone
              | some value =>
                  simp only [hvalue] at hoption
                  cases hoption
                  obtain ⟨hnext, hfits⟩ := valueFrom_some hvalue
                  exact .taking hlone hnext hfits
          | c :: d :: rest, _ =>
              cases hoption
              exact .apart rfl (by simp [Occurrence.plain])

inductive Draft.WordStep (draft : Draft) (token : Token) (next : Option Token) :
    Draft → Bool → Prop
  | name (hname : draft.name = none) :
      Draft.WordStep draft token next { draft with name := some token.value } false
  | argument (hnamed : draft.name.isSome = true)
      (hplain : draft.optionsEnded = true ∨ Shape.of token.value = .argument) :
      Draft.WordStep draft token next (draft.addArgument token.value) false
  | option {occurrences : List Occurrence} {taken : Bool}
      (hnamed : draft.name.isSome = true) (hopen : draft.optionsEnded = false)
      (hshape : Shape.of token.value ≠ .argument)
      (hword : OptionWord (Shape.of token.value) next draft.arguments.length
        occurrences taken) :
      Draft.WordStep draft token next (draft.addOptions occurrences) taken

theorem Draft.addWord_ok {draft result : Draft} {token : Token} {next : Option Token}
    {taken : Bool} (hadd : draft.addWord token next = .ok (result, taken)) :
    Draft.WordStep draft token next result taken := by
  unfold Draft.addWord at hadd
  cases hname : draft.name with
  | none =>
      rw [hname] at hadd
      cases hadd
      exact .name hname
  | some name =>
      have hnamed : draft.name.isSome = true := by rw [hname]; rfl
      rw [hname] at hadd
      cases hended : draft.optionsEnded with
      | true =>
          rw [hended] at hadd
          cases hadd
          exact .argument hnamed (.inl hended)
      | false =>
          rw [hended] at hadd
          cases hshape : Shape.of token.value with
          | argument =>
              simp only [hshape] at hadd
              cases hadd
              exact .argument hnamed (.inr hshape)
          | long body =>
              have hshape' : Shape.of token.value ≠ .argument := by
                rw [hshape]; nofun
              simp only [hshape] at hadd
              cases hoption : longOption token body next draft.arguments.length with
              | error error => rw [hoption] at hadd; cases hadd
              | ok outcome =>
                  rw [hoption] at hadd
                  cases hadd
                  exact .option hnamed hended hshape'
                    (hshape ▸ longOption_ok hoption)
          | short body =>
              have hshape' : Shape.of token.value ≠ .argument := by
                rw [hshape]; nofun
              simp only [hshape] at hadd
              cases hoption : shortOptions token body
                next draft.arguments.length with
              | error error => rw [hoption] at hadd; cases hadd
              | ok outcome =>
                  rw [hoption] at hadd
                  cases hadd
                  exact .option hnamed hended hshape'
                    (hshape ▸ shortOptions_ok hoption)

theorem Draft.WordStep.taken_eq_false {draft result : Draft} {token : Token}
    {taken : Bool} (hstep : Draft.WordStep draft token none result taken) :
    taken = false := by
  cases hstep with
  | name | argument => rfl
  | option _ _ _ hword =>
      cases hword with
      | taking _ hnext => cases hnext
      | plain | apart => rfl

/-- What the first token of a list has led to, and the tokens that are left. -/
inductive Draft.Step (draft : Draft) (token : Token) (rest : List Token) :
    Draft → List Token → Prop
  | pipe (hkind : token.kind = .pipe) : Draft.Step draft token rest draft rest
  | endOptions (hkind : token.kind = .endOfOptions) :
      Draft.Step draft token rest draft.endOptions rest
  | word {next : Draft} (hkind : token.kind = .word)
      (hword : Draft.WordStep draft token rest.head? next false) :
      Draft.Step draft token rest next rest
  | wordTaking {next : Draft} {value : Token} {after : List Token}
      (hkind : token.kind = .word) (hrest : rest = value :: after)
      (hword : Draft.WordStep draft token (some value) next true) :
      Draft.Step draft token rest next after
  | redirection {path : Token} {after : List Token}
      (hkind : token.kind = .redirectIn ∨ token.kind = .redirectOut ∨
        token.kind = .redirectAppend)
      (hrest : rest = path :: after) (hpath : path.kind = .word) :
      Draft.Step draft token rest (draft.redirect token.kind path.value) after

private theorem Draft.scan_cons_ok {draft final : Draft} {token : Token}
    {rest : List Token} (hscan : draft.scan (token :: rest) = .ok final) :
    ∃ next after, Draft.Step draft token rest next after ∧
      next.scan after = .ok final := by
  rw [Draft.scan.eq_def] at hscan
  cases hkind : token.kind with
  | pipe =>
      simp only [hkind] at hscan
      exact ⟨draft, rest, .pipe hkind, hscan⟩
  | endOfOptions =>
      simp only [hkind] at hscan
      exact ⟨_, rest, .endOptions hkind, hscan⟩
  | word =>
      simp only [hkind] at hscan
      cases rest with
      | nil =>
          cases hadd : draft.addWord token none with
          | error error => rw [hadd] at hscan; cases hscan
          | ok outcome =>
              obtain ⟨next, taken⟩ := outcome
              rw [hadd] at hscan
              have hword := Draft.addWord_ok hadd
              have hleft := hword.taken_eq_false
              subst hleft
              refine ⟨next, [], .word hkind hword, ?_⟩
              rw [Draft.scan]
              exact hscan
      | cons value after =>
          cases hadd : draft.addWord token (some value) with
          | error error => simp only [hadd] at hscan; cases hscan
          | ok outcome =>
              obtain ⟨next, taken⟩ := outcome
              simp only [hadd] at hscan
              have hword := Draft.addWord_ok hadd
              cases taken with
              | true => exact ⟨next, after, .wordTaking hkind rfl hword, hscan⟩
              | false => exact ⟨next, value :: after, .word hkind hword, hscan⟩
  | redirectIn | redirectOut | redirectAppend =>
      simp only [hkind] at hscan
      cases rest with
      | nil => cases hscan
      | cons path after =>
          by_cases hpath : path.kind = .word
          · simp only [if_pos hpath] at hscan
            refine ⟨_, after, .redirection (by simp [hkind]) rfl hpath, ?_⟩
            rw [hkind]
            exact hscan
          · simp only [if_neg hpath] at hscan
            cases hscan

private theorem Draft.Step.length_le {draft next : Draft} {token : Token}
    {rest after : List Token} (hstep : Draft.Step draft token rest next after) :
    after.length ≤ rest.length := by
  cases hstep with
  | pipe | endOptions | word => exact Nat.le_refl _
  | wordTaking _ hrest | redirection _ hrest =>
      subst hrest
      exact Nat.le_succ _

/-- The steps that lead from a list of tokens to the draft that they make. -/
inductive Draft.Run : Draft → List Token → Draft → Prop
  | done (draft : Draft) : Draft.Run draft [] draft
  | step {draft next final : Draft} {token : Token} {rest after : List Token}
      (hstep : Draft.Step draft token rest next after)
      (hrun : Draft.Run next after final) : Draft.Run draft (token :: rest) final

private theorem Draft.run_of_scan {final : Draft} :
    ∀ {draft : Draft} {tokens : List Token},
    draft.scan tokens = .ok final → Draft.Run draft tokens final
  | draft, [], hscan => by
      rw [Draft.scan] at hscan
      cases hscan
      exact .done _
  | draft, token :: rest, hscan => by
      obtain ⟨next, after, hstep, hrest⟩ := Draft.scan_cons_ok hscan
      have hlength := hstep.length_le
      exact .step hstep (Draft.run_of_scan hrest)
  termination_by _ tokens => tokens.length
  decreasing_by simp only [List.length_cons]; omega

theorem parseInvocation_ok {tokens : List Token} {invocation : Invocation}
    (hparse : parseInvocation tokens = .ok invocation) :
    ∃ final, Draft.Run .empty tokens final ∧ final.finish = .ok invocation := by
  unfold parseInvocation at hparse
  cases hscan : Draft.empty.scan tokens with
  | error error => rw [hscan] at hparse; cases hparse
  | ok final =>
      rw [hscan] at hparse
      exact ⟨final, Draft.run_of_scan hscan, hparse⟩

theorem Draft.finish_ok {draft : Draft} {invocation : Invocation}
    (hfinish : draft.finish = .ok invocation) :
    ∃ name, draft.name = some name ∧
      invocation = ⟨name, draft.arguments, draft.options, draft.redirections⟩ := by
  unfold Draft.finish at hfinish
  cases hname : draft.name with
  | none => rw [hname] at hfinish; cases hfinish
  | some name =>
      rw [hname] at hfinish
      cases hfinish
      exact ⟨name, rfl, rfl⟩

theorem segments_of_no_pipe {tokens : List Token}
    (hnone : ∀ token ∈ tokens, token.kind ≠ .pipe) :
    segments tokens = ([], tokens) := by
  induction tokens with
  | nil => rfl
  | cons token rest ih =>
      have hkind := hnone token List.mem_cons_self
      have hrest := ih fun other member =>
        hnone other (List.mem_cons_of_mem _ member)
      rw [segments, hrest]
      simp only [if_neg hkind]

theorem segments_append_pipe {tokens : List Token} {pipe : Token}
    (hnone : ∀ token ∈ tokens, token.kind ≠ .pipe) (hpipe : pipe.kind = .pipe)
    (rest : List Token) :
    segments (tokens ++ pipe :: rest) =
      (⟨tokens, pipe.span.start⟩ :: (segments rest).1, (segments rest).2) := by
  induction tokens with
  | nil =>
      rw [List.nil_append, segments]
      simp only [if_pos hpipe]
  | cons token tokens ih =>
      have hkind := hnone token List.mem_cons_self
      have htail := ih fun other member =>
        hnone other (List.mem_cons_of_mem _ member)
      rw [List.cons_append, segments, htail]
      simp only [if_neg hkind]

private theorem length_parseSegments {closed : List Segment}
    {invocations : List Invocation}
    (hparse : parseSegments closed = .ok invocations) :
    invocations.length = closed.length := by
  induction closed generalizing invocations with
  | nil => cases hparse; rfl
  | cons segment rest ih =>
      rw [parseSegments] at hparse
      cases hsegment : parseSegment segment with
      | error error => rw [hsegment] at hparse; cases hparse
      | ok invocation =>
          rw [hsegment] at hparse
          cases hrest : parseSegments rest with
          | error error => rw [hrest] at hparse; cases hparse
          | ok others =>
              rw [hrest] at hparse
              cases hparse
              rw [List.length_cons, List.length_cons, ih hrest]

private theorem eq_of_segments_nil {tokens last : List Token}
    (hcut : segments tokens = ([], last)) :
    last = tokens := by
  induction tokens generalizing last with
  | nil => cases hcut; rfl
  | cons token rest ih =>
      rw [segments] at hcut
      cases hrest : segments rest with
      | mk closed after =>
          rw [hrest] at hcut
          by_cases hkind : token.kind = .pipe
          · simp only [if_pos hkind] at hcut
            cases hcut
          · simp only [if_neg hkind] at hcut
            cases closed with
            | nil =>
                cases hcut
                rw [ih hrest]
            | cons segment more => cases hcut

theorem parseInvocation_of_parseTokens {tokens : List Token}
    {invocation : Invocation}
    (hparse : parseTokens tokens = .ok (some [invocation])) :
    parseInvocation tokens = .ok invocation := by
  unfold parseTokens at hparse
  by_cases hempty : tokens.isEmpty = true
  · rw [if_pos hempty] at hparse
    cases hparse
  · rw [if_neg hempty] at hparse
    cases hcut : segments tokens with
    | mk closed last =>
        rw [hcut] at hparse
        cases hclosed : parseSegments closed with
        | error error => simp only [hclosed] at hparse; cases hparse
        | ok invocations =>
            simp only [hclosed] at hparse
            by_cases hlast : last.isEmpty = true
            · rw [if_pos hlast] at hparse
              cases hparse
            · rw [if_neg hlast] at hparse
              cases hfinal : parseInvocation last with
              | error error => rw [hfinal] at hparse; cases hparse
              | ok final =>
                  rw [hfinal] at hparse
                  have hlist : invocations ++ [final] = [invocation] :=
                    Option.some.inj (Except.ok.inj hparse)
                  have hcount := congrArg List.length hlist
                  rw [List.length_append, length_parseSegments hclosed] at hcount
                  have hnil : closed = [] :=
                    List.eq_nil_of_length_eq_zero (by simpa using hcount)
                  subst hnil
                  cases hclosed
                  cases hlist
                  rw [← eq_of_segments_nil hcut, hfinal]

end Pipeline

end PipeShell
