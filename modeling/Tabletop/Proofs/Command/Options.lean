import Tabletop.Proofs.Command.SingleCode

namespace Tabletop

/-!
# Codes behind options

Options are the words of a command line among which no operand is found. Codes
that do not begin with a dash and stand behind options change nothing of what the
options are read as, and are the codes of the invocation: `read?_append`. Options
alone give no codes: `read?_codes`. Either way the plan is the one for codes that are
echoed, as long as there are several (`make_codes`, `make_input`).
-/

section

variable {ε α β : Type}

theorem bind_eq_ok_iff
    {first : Except ε α}
    {next : α → Except ε β}
    {result : β} :
    first >>= next = .ok result ↔ ∃ value, first = .ok value ∧ next value = .ok result := by
  cases first with
  | error e =>
      constructor
      · nofun
      · nofun
  | ok value =>
      constructor
      · intro done
        exact ⟨value, rfl, done⟩
      · rintro ⟨_, ⟨⟩, done⟩
        exact done

theorem mapError_eq_ok_iff
    {δ : Type}
    {first : Except ε α}
    {change : ε → δ}
    {value : α} :
    first.mapError change = .ok value ↔ first = .ok value := by
  cases first with
  | error e =>
      constructor <;> nofun
  | ok value =>
      constructor
      · rintro ⟨⟩
        rfl
      · rintro ⟨⟩
        rfl

/-- What every step preserves holds at the end of all steps that succeed. -/
theorem foldlM_invariant
    {step : β → α → Except ε β}
    (Holds : β → Prop)
    {items : List α}
    {start last : β}
    (each :
      ∀ item ∈ items, ∀ {before after},
        Holds before → step before item = .ok after → Holds after)
    (holds : Holds start)
    (folded : items.foldlM step start = .ok last) :
    Holds last := by
  induction items generalizing start with
  | nil =>
      cases folded
      exact holds
  | cons item items inductionHypothesis =>
      obtain ⟨eachFirst, eachOther⟩ := List.forall_mem_cons.mp each
      rw [List.foldlM_cons] at folded
      obtain ⟨between, stepped, folded⟩ := bind_eq_ok_iff.mp folded
      exact inductionHypothesis eachOther (eachFirst holds stepped) folded

end

namespace Word

/-- A word that is taken on its own, apart from any run of operands. -/
def StandsAlone : Word → Prop
  | operand _ => False
  | divider => False
  | option _ _ _ => True
  | unknown _ => True

theorem classify?_of_noDash
    {codes : List String}
    (noDash : ∀ code ∈ codes, code.toList.head? ≠ some '-') :
    classify? codes = .ok (codes.map operand) := by
  induction codes with
  | nil =>
      rfl
  | cons code codes inductionHypothesis =>
      have notDivider : code ≠ "--" := by
        rintro rfl
        exact noDash _ (.head _) rfl
      rw [classify?, if_neg notDivider, ofText?_of_noDash (noDash code (.head _)),
        inductionHypothesis fun code member => noDash code (.tail _ member)]
      rfl

/-- Codes behind other words are operands, and the other words are what they are without them. -/
theorem classify?_append
    (arguments : List String)
    {codes : List String}
    (noDash : ∀ code ∈ codes, code.toList.head? ≠ some '-') :
    classify? (arguments ++ codes) = (classify? arguments).map (· ++ codes.map operand) := by
  induction arguments with
  | nil =>
      exact classify?_of_noDash noDash
  | cons text arguments inductionHypothesis =>
      rw [List.cons_append, classify?, classify?]
      split
      · rw [List.map_append]
        rfl
      · rw [inductionHypothesis]
        cases ofText? text with
        | error misuse =>
            rfl
        | ok word =>
            cases classify? arguments <;> rfl

/-- Only the double dash itself is a divider. -/
theorem ofText?_ne_divider (text : String) :
    ofText? text ≠ .ok divider := by
  have unnamed (text : String) : unnamed text ≠ divider := by
    unfold Word.unnamed
    split <;> nofun
  have long : ofLong? text ≠ .ok divider := by
    unfold ofLong?
    dsimp only
    split
    · intro same
      exact unnamed _ (Except.ok.inj same)
    · nofun
    · nofun
  have short (letter : Char) (behind : List Char) : ofShort text letter behind ≠ divider := by
    unfold ofShort
    split
    · nofun
    · exact unnamed text
  unfold ofText?
  dsimp only
  split
  · nofun
  · nofun
  · split
    · exact long
    · intro same
      exact short _ _ (Except.ok.inj same)
    · nofun

/-- Where no operand is found, all words stand alone but for a double dash at the end. -/
theorem classify?_shape
    {options : List String}
    {words : List Word}
    (classified : classify? options = .ok words)
    (noOperand : ∀ text, operand text ∉ words) :
    ∃ front,
      (∀ word ∈ front, word.StandsAlone) ∧ (words = front ∨ words = front ++ [divider]) := by
  induction options generalizing words with
  | nil =>
      cases classified
      exact ⟨[], nofun, .inl rfl⟩
  | cons text options inductionHypothesis =>
      rw [classify?] at classified
      split at classified
      · -- Behind a double dash every word is an operand, so here none stands behind it.
        cases classified
        cases options with
        | nil =>
            exact ⟨[], nofun, .inr rfl⟩
        | cons next options =>
            exact absurd (.tail _ (.head _)) (noOperand next)
      · obtain ⟨word, first, classified⟩ := bind_eq_ok_iff.mp classified
        obtain ⟨later, others, classified⟩ := bind_eq_ok_iff.mp classified
        cases classified
        obtain ⟨front, alone, shape⟩ :=
          inductionHypothesis others fun text member => noOperand text (.tail _ member)
        have wordAlone : word.StandsAlone := by
          cases word with
          | operand text =>
              exact noOperand text (.head _)
          | divider =>
              exact ofText?_ne_divider text first
          | option switch isShort attached =>
              trivial
          | unknown text =>
              trivial
        refine ⟨word :: front, List.forall_mem_cons.mpr ⟨wordAlone, alone⟩, ?_⟩
        rcases shape with rfl | rfl
        · exact .inl rfl
        · exact .inr rfl

end Word

namespace Invocation

/-- Whether no word is found to be an operand. -/
def OnlyOptions (options : List String) : Prop :=
  ∀ words, Word.classify? options = .ok words → ∀ text, .operand text ∉ words

theorem onlyOptions_of_classified
    {options : List String}
    {words : List Word}
    (classified : Word.classify? options = .ok words)
    (noOperand : ∀ text, .operand text ∉ words) :
    OnlyOptions options := by
  intro others alsoClassified
  obtain rfl := Except.ok.inj (classified.symm.trans alsoClassified)
  exact noOperand

/-- How far all words of a command line are taken. -/
def taken? (arguments : List String) : Except Dismissal Progress := do
  let words ← (Word.classify? arguments).mapError Dismissal.misuse
  words.foldlM Progress.take? {}

/-- The invocation at the end of a command line, unless words are left over. -/
def Progress.conclude? (progress : Progress) : Except Dismissal Invocation :=
  let progress := progress.endRun
  if progress.leftOver = [] then .ok progress.invocation
  else .error (.misuse (.leftOver progress.leftOver))

theorem read?_eq (arguments : List String) :
    read? arguments = (taken? arguments).bind Progress.conclude? := by
  unfold read? taken?
  cases Word.classify? arguments with
  | error misuse =>
      rfl
  | ok words =>
      rfl

theorem give?_codes
    {invocation given : Invocation}
    {switch : Switch}
    (gives : give? invocation switch = .ok given) :
    given.codes = invocation.codes := by
  unfold give? at gives
  split at gives <;> cases gives <;> rfl

namespace Progress

/-- Whether nothing was taken so far that could be a code. -/
structure Codeless (progress : Progress) : Prop where
  run : progress.run = none
  settled : progress.settled = false
  codes : progress.invocation.codes = []

variable {progress next : Progress}

theorem endRun_of_none (noRun : progress.run = none) :
    progress.endRun = progress := by
  unfold endRun
  rw [noRun]

/-- What one word preserves that stands alone. -/
theorem take?_codeless
    (codeless : progress.Codeless)
    {word : Word}
    (alone : word.StandsAlone)
    (taken : progress.take? word = .ok next) :
    next.Codeless := by
  unfold take? at taken
  rw [endRun_of_none codeless.run] at taken
  cases word with
  | operand text =>
      cases alone
  | divider =>
      cases alone
  | unknown text =>
      cases taken
      exact ⟨codeless.run, codeless.settled, codeless.codes⟩
  | option switch isShort attached =>
      obtain ⟨switches, -, taken⟩ := bind_eq_ok_iff.mp taken
      obtain ⟨invocation, gives, taken⟩ := bind_eq_ok_iff.mp taken
      cases taken
      have codes : invocation.codes = [] :=
        foldlM_invariant (fun invocation => invocation.codes = [])
          (fun _ _ _ _ none given => (give?_codes given).trans none) codeless.codes gives
      exact ⟨codeless.run, codeless.settled, codes⟩

/-- Operands go on with a run, or begin one. -/
theorem foldlM_take?_operands
    {codes : List String}
    (given : codes ≠ []) :
    (codes.map Word.operand).foldlM take? progress =
      .ok { progress with run := some (progress.run.getD [] ++ codes) } := by
  induction codes generalizing progress with
  | nil =>
      exact absurd rfl given
  | cons code codes inductionHypothesis =>
      rw [List.map_cons, List.foldlM_cons]
      change (codes.map Word.operand).foldlM take?
        { progress with run := some (progress.run.getD [] ++ [code]) } = _
      cases codes with
      | nil =>
          rfl
      | cons next codes =>
          rw [inductionHypothesis (List.cons_ne_nil next codes), Option.getD_some,
            List.append_assoc]
          rfl

end Progress

variable {options codes : List String} {progress : Progress} {invocation : Invocation}

/-- Behind options no run goes on, but for that of a double dash at their end. -/
theorem taken?_options
    (onlyOptions : OnlyOptions options)
    (taken : taken? options = .ok progress) :
    progress.settled = false ∧
      progress.invocation.codes = [] ∧
      (progress.run = none ∨ progress.run = some ["--"]) := by
  obtain ⟨words, classified, taken⟩ := bind_eq_ok_iff.mp taken
  rw [mapError_eq_ok_iff] at classified
  obtain ⟨front, alone, shape⟩ := Word.classify?_shape classified (onlyOptions words classified)
  have codeless {last : Progress} (folded : front.foldlM Progress.take? {} = .ok last) :
      last.Codeless :=
    foldlM_invariant Progress.Codeless
      (fun word member _ _ codeless => Progress.take?_codeless codeless (alone word member))
      ⟨rfl, rfl, rfl⟩ folded
  rcases shape with rfl | rfl
  · have before := codeless taken
    exact ⟨before.settled, before.codes, .inl before.run⟩
  · rw [List.foldlM_append] at taken
    obtain ⟨last, folded, taken⟩ := bind_eq_ok_iff.mp taken
    have before := codeless folded
    cases taken
    refine ⟨before.settled, before.codes, .inr ?_⟩
    change some (last.run.getD [] ++ ["--"]) = _
    rw [before.run]
    rfl

/-- Codes behind other words go on with the run of those words, or begin one. -/
theorem taken?_append
    (arguments : List String)
    (noDash : ∀ code ∈ codes, code.toList.head? ≠ some '-')
    (given : codes ≠ []) :
    taken? (arguments ++ codes) =
      (taken? arguments).map fun progress =>
        { progress with run := some (progress.run.getD [] ++ codes) } := by
  unfold taken?
  rw [Word.classify?_append arguments noDash]
  cases Word.classify? arguments with
  | error misuse =>
      rfl
  | ok words =>
      change (words ++ codes.map Word.operand).foldlM Progress.take? {} =
        (words.foldlM Progress.take? {}).map _
      rw [List.foldlM_append]
      cases words.foldlM Progress.take? {} with
      | error dismissal =>
          rfl
      | ok progress =>
          exact Progress.foldlM_take?_operands given

/-- Where nothing was settled, a run that ends holds the codes, less its first double dash. -/
theorem Progress.conclude?_of_run
    {words : List String}
    (settled : progress.settled = false) :
    conclude? { progress with run := some words } =
      if progress.leftOver = [] then .ok { progress.invocation with codes := words.erase "--" }
      else .error (.misuse (.leftOver progress.leftOver)) := by
  unfold conclude? endRun
  rw [settled]
  rfl

/-- What options come to where no codes stand behind them. -/
theorem conclude?_options
    (onlyOptions : OnlyOptions options)
    (taken : taken? options = .ok progress) :
    progress.conclude? =
      if progress.leftOver = [] then .ok { progress.invocation with codes := [] }
      else .error (.misuse (.leftOver progress.leftOver)) := by
  obtain ⟨settled, none, noRun | dashRun⟩ := taken?_options onlyOptions taken
  · have same : { progress.invocation with codes := [] } = progress.invocation := by
      rw [← none]
    unfold Progress.conclude?
    rw [Progress.endRun_of_none noRun, same]
  · have concluded := @Progress.conclude?_of_run progress ["--"] settled
    rw [← dashRun] at concluded
    exact concluded

/-- What options come to with codes behind them. -/
theorem conclude?_options_append
    (onlyOptions : OnlyOptions options)
    (taken : taken? options = .ok progress)
    (noDash : ∀ code ∈ codes, code.toList.head? ≠ some '-') :
    Progress.conclude? { progress with run := some (progress.run.getD [] ++ codes) } =
      if progress.leftOver = [] then .ok { progress.invocation with codes := codes }
      else .error (.misuse (.leftOver progress.leftOver)) := by
  obtain ⟨settled, -, runs⟩ := taken?_options onlyOptions taken
  have codesLeft : (progress.run.getD [] ++ codes).erase "--" = codes := by
    rcases runs with noRun | dashRun
    · rw [noRun, Option.getD_none, List.nil_append]
      exact List.erase_of_not_mem fun member => noDash "--" member rfl
    · rw [dashRun]
      exact List.erase_cons_head "--" codes
  rw [Progress.conclude?_of_run settled, codesLeft]

/-- Codes behind options are the codes of what the options are read as, if it is accepted at all. -/
theorem read?_append
    (onlyOptions : OnlyOptions options)
    (noDash : ∀ code ∈ codes, code.toList.head? ≠ some '-')
    (given : codes ≠ []) :
    read? (options ++ codes) =
      (read? options).map fun invocation => { invocation with codes := codes } := by
  rw [read?_eq, read?_eq, taken?_append options noDash given]
  cases taken : taken? options with
  | error dismissal =>
      rfl
  | ok progress =>
      change Progress.conclude? { progress with run := some (progress.run.getD [] ++ codes) } =
        (Progress.conclude? progress).map _
      rw [conclude?_options_append onlyOptions taken noDash, conclude?_options onlyOptions taken]
      split <;> rfl

end Invocation

/-- The narrator of a loudness. -/
def Loudness.narrator (loudness : Loudness) : Narrator where
  threshold := loudness.rank

namespace Plan

/-- The rules that count: a switch turns on what is not preferred. -/
def effectiveRules
    (invocation : Invocation)
    (preferences : Preferences) :
    Rules where
  explode := invocation.explode || preferences.explode
  whole66 := invocation.whole66 || preferences.whole66

/-- The plan for codes that are echoed. -/
def echoing
    (invocation : Invocation)
    (preferences : Preferences)
    (codes : List String) :
    Plan where
  rules := effectiveRules invocation preferences
  narrator := (loudness invocation preferences).narrator
  desk := Desk.configure (.named preferences.journal) {}
  echo := true
  codes := codes

theorem make_codes
    {codes : List String}
    (several : 2 ≤ codes.length)
    (invocation : Invocation)
    (preferences : Preferences)
    (input : StandardInput) :
    make { invocation with codes := codes } preferences input =
      echoing invocation preferences codes := by
  have given : codes ≠ [] := by
    rintro rfl
    cases several
  have echo : (codes.length != 1) = true := by
    simp
    omega
  unfold make
  rw [if_neg given, echo]
  rfl

/-- The plan for codes behind options that are accepted. -/
theorem make?_codes
    {options codes : List String}
    {invocation : Invocation}
    (onlyOptions : Invocation.OnlyOptions options)
    (accepted : Invocation.read? options = .ok invocation)
    (noDash : ∀ code ∈ codes, code.toList.head? ≠ some '-')
    (several : 2 ≤ codes.length)
    (preferences : Preferences)
    (input : StandardInput) :
    make? { arguments := options ++ codes, input := input, preferences := .ok preferences } =
      .ok (echoing invocation preferences codes) := by
  have given : codes ≠ [] := by
    rintro rfl
    cases several
  have acceptedAll :
      Invocation.read? (options ++ codes) = .ok { invocation with codes := codes } := by
    rw [Invocation.read?_append onlyOptions noDash given, accepted]
    rfl
  rw [make?_of_accepted acceptedAll rfl, make_codes several]

end Plan

end Tabletop
