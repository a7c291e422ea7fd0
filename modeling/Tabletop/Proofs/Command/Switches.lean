import Tabletop.Proofs.Command.Options

namespace Tabletop

/-!
# One more switch

A switch that is put in front of a command line changes what the command line is
read as by this switch alone, unless its rival is given: `adds_cons`. The reason is
that all words are taken one after the other, and each of them carries the switch
along (`Progress.take?_adding`). A switch that no word gives is not there in the end:
`has_of_notGiven`.
-/

/-- A change of the state that each step carries along is carried along by all steps. -/
theorem foldlM_map
    {ε α β : Type}
    {step : β → α → Except ε β}
    (change : β → β)
    {items : List α}
    (each : ∀ item ∈ items, ∀ state, step (change state) item = (step state item).map change)
    (start : β) :
    items.foldlM step (change start) = (items.foldlM step start).map change := by
  induction items generalizing start with
  | nil =>
      rfl
  | cons item items inductionHypothesis =>
      obtain ⟨eachFirst, eachOther⟩ := List.forall_mem_cons.mp each
      rw [List.foldlM_cons, List.foldlM_cons, eachFirst]
      cases step start item with
      | error e =>
          rfl
      | ok between =>
          exact inductionHypothesis eachOther between

/-- Switches exclude each other. -/
theorem Switch.rival?_symm
    {switch other : Switch}
    (rival : switch.rival? = some other) :
    other.rival? = some switch := by
  cases switch <;> cases rival <;> rfl

/-- Whether a word gives a switch, alone or among others. -/
def Word.Gives
    (switch : Switch) :
    Word → Prop
  | operand _ => False
  | divider => False
  | unknown _ => False
  | option first isShort attached =>
      ∃ given, Invocation.switches? first isShort attached = .ok given ∧ switch ∈ given

namespace Invocation

/-- Whether a word of the command line gives a switch. -/
def Gives
    (arguments : List String)
    (switch : Switch) :
    Prop :=
  ∃ words, Word.classify? arguments = .ok words ∧ ∃ word ∈ words, word.Gives switch

/-- The invocation with one more switch. -/
def adding
    (switch : Switch)
    (invocation : Invocation) :
    Invocation :=
  match switch with
  | .help => invocation
  | .explode => { invocation with explode := true }
  | .whole66 => { invocation with whole66 := true }
  | .quiet => { invocation with quiet := true }
  | .verbose => { invocation with verbose := true }

/-- Whether words are read as other words are, but for one more switch. -/
def Adds
    (switch : Switch)
    (arguments more : List String) :
    Prop :=
  read? more = (read? arguments).map (adding switch)

variable {switch other : Switch} {invocation given : Invocation}

theorem has_adding (different : other ≠ switch) :
    (adding switch invocation).has other = invocation.has other := by
  cases switch <;> cases other <;> first | rfl | exact absurd rfl different

theorem give?_eq_adding (gives : give? invocation switch = .ok given) :
    given = adding switch invocation := by
  unfold give? at gives
  split at gives <;> cases gives <;> rfl

/-- A switch is given whether or not another one was that is no rival of it. -/
theorem give?_adding
    (notRival : other.rival? ≠ some switch)
    (invocation : Invocation) :
    give? (adding switch invocation) other = (give? invocation other).map (adding switch) := by
  have sameRival :
      other.rival?.filter (adding switch invocation).has = other.rival?.filter invocation.has := by
    cases rival : other.rival? with
    | none =>
        rfl
    | some third =>
        have different : third ≠ switch := by
          rintro rfl
          exact notRival rival
        rw [Option.filter_some, Option.filter_some, has_adding different]
  unfold give?
  rw [sameRival]
  cases other.rival?.filter invocation.has with
  | some rival =>
      rfl
  | none =>
      cases other <;> cases switch <;> rfl

namespace Progress

/-- The same words taken with one more switch. -/
def adding
    (switch : Switch)
    (progress : Progress) :
    Progress :=
  { progress with invocation := progress.invocation.adding switch }

variable {progress next : Progress} {word : Word}

theorem endRun_adding : (progress.adding switch).endRun = progress.endRun.adding switch := by
  rcases progress with ⟨invocation, run, settled, leftOver⟩
  cases run with
  | none =>
      rfl
  | some words =>
      cases settled with
      | true =>
          rfl
      | false =>
          cases switch <;> rfl

theorem endRun_has : progress.endRun.invocation.has switch = progress.invocation.has switch := by
  unfold endRun
  split
  · rfl
  · split
    · rfl
    · cases switch <;> rfl

/-- What one word does that does not give the rival of a switch, it does with the switch added. -/
theorem take?_adding
    (noRival : ∀ rival, switch.rival? = some rival → ¬ word.Gives rival)
    (progress : Progress) :
    (progress.adding switch).take? word = (progress.take? word).map (adding switch) := by
  cases word with
  | operand text =>
      rfl
  | divider =>
      rfl
  | unknown text =>
      unfold take?
      rw [endRun_adding]
      rfl
  | option first isShort attached =>
      unfold take?
      dsimp only
      rw [endRun_adding]
      cases means : switches? first isShort attached with
      | error misuse =>
          rfl
      | ok switches =>
          have carried :
              switches.foldlM give? (progress.endRun.invocation.adding switch) =
                (switches.foldlM give? progress.endRun.invocation).map
                  (Invocation.adding switch) :=
            foldlM_map (Invocation.adding switch)
              (fun third member => give?_adding fun rival =>
                noRival third (Switch.rival?_symm rival) ⟨switches, means, member⟩)
              progress.endRun.invocation
          change (switches.foldlM give? (progress.endRun.invocation.adding switch)).bind _ =
            ((switches.foldlM give? progress.endRun.invocation).bind _).map _
          rw [carried]
          cases switches.foldlM give? progress.endRun.invocation <;> rfl

/-- A switch that was not given is not given by a word that does not give it. -/
theorem take?_has
    (notGiven : ¬ word.Gives switch)
    (hadNot : progress.invocation.has switch = false)
    (taken : progress.take? word = .ok next) :
    next.invocation.has switch = false := by
  rw [← endRun_has] at hadNot
  cases word with
  | operand text =>
      cases taken
      rwa [endRun_has] at hadNot
  | divider =>
      cases taken
      rwa [endRun_has] at hadNot
  | unknown text =>
      cases taken
      exact hadNot
  | option first isShort attached =>
      obtain ⟨switches, means, taken⟩ := bind_eq_ok_iff.mp taken
      obtain ⟨invocation, gives, taken⟩ := bind_eq_ok_iff.mp taken
      cases taken
      have noneOfThem (third : Switch) (member : third ∈ switches) : switch ≠ third := by
        rintro rfl
        exact notGiven ⟨switches, mapError_eq_ok_iff.mp means, member⟩
      refine foldlM_invariant (·.has switch = false) ?_ hadNot gives
      intro third member before after hadNot gives
      rw [give?_eq_adding gives, has_adding (noneOfThem third member)]
      exact hadNot

theorem conclude?_adding :
    (progress.adding switch).conclude? = progress.conclude?.map (Invocation.adding switch) := by
  unfold conclude?
  rw [endRun_adding]
  dsimp only [adding]
  split <;> rfl

end Progress

variable {arguments : List String}

theorem Adds.accepted
    {more : List String}
    (adds : Adds switch arguments more)
    (accepted : read? arguments = .ok invocation) :
    read? more = .ok (adding switch invocation) := by
  unfold Adds at adds
  rw [adds, accepted]
  rfl

theorem Adds.dismissed
    {more : List String}
    {dismissal : Dismissal}
    (adds : Adds switch arguments more)
    (dismissed : read? arguments = .error dismissal) :
    read? more = .error dismissal := by
  unfold Adds at adds
  rw [adds, dismissed]
  rfl

/-- A word that gives one switch, in front of others that do not give its rival. -/
theorem adds_cons
    {text : String}
    {isShort : Bool}
    (names : Word.ofText? text = .ok (.option switch isShort none))
    (notHelp : switch ≠ .help)
    (noRival : ∀ rival, switch.rival? = some rival → ¬ Gives arguments rival) :
    Adds switch arguments (text :: arguments) := by
  have notDivider : text ≠ "--" := by
    rintro rfl
    cases names
  have first : Progress.take? {} (.option switch isShort none) = .ok (Progress.adding switch {}) := by
    cases switch <;> first | rfl | exact absurd rfl notHelp
  unfold Adds
  rw [read?_eq, read?_eq]
  unfold taken?
  rw [Word.classify?, if_neg notDivider, names]
  cases classified : Word.classify? arguments with
  | error misuse =>
      rfl
  | ok words =>
      have carried :
          words.foldlM Progress.take? (Progress.adding switch {}) =
            (words.foldlM Progress.take? {}).map (Progress.adding switch) :=
        foldlM_map (Progress.adding switch)
          (fun word member => Progress.take?_adding fun rival isRival gives =>
            noRival rival isRival ⟨words, classified, word, member, gives⟩) {}
      change ((Progress.take? {} _).bind fun progress => words.foldlM Progress.take? progress).bind _ =
        ((words.foldlM Progress.take? {}).bind Progress.conclude?).map _
      rw [first]
      change (words.foldlM Progress.take? (Progress.adding switch {})).bind _ = _
      rw [carried]
      cases words.foldlM Progress.take? {} with
      | error dismissal =>
          rfl
      | ok progress =>
          exact Progress.conclude?_adding

/-- A switch that no word gives is not there in the end. -/
theorem has_of_notGiven
    (notGiven : ¬ Gives arguments switch)
    (accepted : read? arguments = .ok invocation) :
    invocation.has switch = false := by
  rw [read?_eq] at accepted
  obtain ⟨progress, taken, accepted⟩ := bind_eq_ok_iff.mp accepted
  obtain ⟨words, classified, taken⟩ := bind_eq_ok_iff.mp taken
  have hasNot : progress.invocation.has switch = false := by
    refine foldlM_invariant (·.invocation.has switch = false) ?_ (by cases switch <;> rfl) taken
    intro word member before after hadNot taken
    refine Progress.take?_has (fun gives => notGiven ?_) hadNot taken
    exact ⟨words, mapError_eq_ok_iff.mp classified, word, member, gives⟩
  unfold Progress.conclude? at accepted
  dsimp only at accepted
  split at accepted
  · cases accepted
    rwa [Progress.endRun_has]
  · cases accepted

end Invocation

end Tabletop
