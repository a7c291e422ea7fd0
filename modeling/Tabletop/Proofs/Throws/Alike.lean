import Tabletop.Command.Course
import Tabletop.Roll.Audit

namespace Tabletop

/-!
# Sources that cannot be told apart

Two sources are alike under a relation between their states if related states
answer every die alike and stay related. Throwing looks at a source through its
answers only, so whatever is thrown comes to the same outcome with the same
faces, and leaves related states. A source is in this way like itself behind a
notebook (`alike_recorded`) or under watch (`alike_watched`).
-/

/-- Whether related states of two sources answer every die alike and stay related. -/
structure Source.Alike
    {σ τ : Type}
    (source : Source σ)
    (other : Source τ)
    (Related : σ → τ → Prop) :
    Prop where
  answer :
    ∀ (sides : Int) {s : σ} {t : τ},
      Related s t → (source.draw sides s).1 = (other.draw sides t).1
  left :
    ∀ (sides : Int) {s : σ} {t : τ},
      Related s t → Related (source.draw sides s).2 (other.draw sides t).2
  streak :
    ∀ {s : σ} {t : τ}, Related s t → source.streak s = other.streak t

section

variable {σ τ α β : Type} {Related : σ → τ → Prop} {ahead : Array Int}

/-- Hands with related states, and with the same faces but for those accepted ahead. -/
structure Hand.Alike
    (Related : σ → τ → Prop)
    (ahead : Array Int)
    (hand : Hand σ)
    (other : Hand τ) :
    Prop where
  source : Related hand.source other.source
  faces : hand.faces = ahead ++ other.faces

/-- The same outcome, with hands that are alike. -/
structure Thrown.Alike
    (Related : σ → τ → Prop)
    (ahead : Array Int)
    (thrown : Thrown σ α)
    (other : Thrown τ α) :
    Prop where
  outcome : thrown.outcome = other.outcome
  hand : Hand.Alike Related ahead thrown.hand other.hand

theorem Thrown.Alike.andThen
    {thrown : Thrown σ α}
    {other : Thrown τ α}
    {next : α → Hand σ → Thrown σ β}
    {otherNext : α → Hand τ → Thrown τ β}
    (begins : Thrown.Alike Related ahead thrown other)
    (continues :
      ∀ value {hand : Hand σ} {otherHand : Hand τ},
        Hand.Alike Related ahead hand otherHand →
        Thrown.Alike Related ahead (next value hand) (otherNext value otherHand)) :
    Thrown.Alike Related ahead (thrown.andThen next) (other.andThen otherNext) := by
  rcases thrown with ⟨outcome, hand⟩
  rcases other with ⟨otherOutcome, otherHand⟩
  rcases begins with ⟨same, hands⟩
  cases same
  cases outcome with
  | error fault =>
      exact ⟨rfl, hands⟩
  | ok value =>
      exact continues value hands

namespace Source.Alike

variable {source : Source σ} {other : Source τ} {hand : Hand σ} {otherHand : Hand τ}

theorem face
    (alike : source.Alike other Related)
    (hands : Hand.Alike Related ahead hand otherHand)
    (sides : Int) :
    Thrown.Alike Related ahead (source.face sides hand) (other.face sides otherHand) := by
  have answer := alike.answer sides hands.source
  have left := alike.left sides hands.source
  unfold Source.face
  revert answer left
  rcases source.draw sides hand.source with ⟨drawn, state⟩
  rcases other.draw sides otherHand.source with ⟨otherDrawn, otherState⟩
  rintro ⟨⟩ left
  cases drawn with
  | error refusal =>
      exact ⟨rfl, left, hands.faces⟩
  | ok face =>
      simp only
      split
      · refine ⟨rfl, left, ?_⟩
        rw [hands.faces, Array.append_push]
      · exact ⟨rfl, left, hands.faces⟩

theorem chain
    (alike : source.Alike other Related)
    (hands : Hand.Alike Related ahead hand otherHand)
    (limit : Nat)
    (total : Int) :
    Thrown.Alike Related ahead
      (source.chain limit total hand)
      (other.chain limit total otherHand) := by
  induction limit generalizing total hand otherHand with
  | zero =>
      exact ⟨rfl, hands⟩
  | succ limit inductionHypothesis =>
      apply (alike.face hands explodingSides).andThen
      intro face hand otherHand hands
      split
      · exact inductionHypothesis hands (total + face)
      · exact ⟨rfl, hands⟩

theorem throw
    (alike : source.Alike other Related)
    (hands : Hand.Alike Related ahead hand otherHand)
    (position : Position) :
    Thrown.Alike Related ahead
      (source.throw position hand)
      (other.throw position otherHand) := by
  cases position with
  | single sides =>
      exact alike.face hands sides
  | exploding =>
      unfold Source.throw
      rw [alike.streak hands.source]
      exact alike.chain hands _ 0
  | pair =>
      apply (alike.face hands 6).andThen
      intro tens hand otherHand hands
      apply (alike.face hands 6).andThen
      intro units hand otherHand hands
      exact ⟨rfl, hands⟩

theorem throwSum
    (alike : source.Alike other Related)
    (hands : Hand.Alike Related ahead hand otherHand)
    (position : Position)
    (count : Nat)
    (total : Int) :
    Thrown.Alike Related ahead
      (source.throwSum position count total hand)
      (other.throwSum position count total otherHand) := by
  induction count generalizing total hand otherHand with
  | zero =>
      exact ⟨rfl, hands⟩
  | succ count inductionHypothesis =>
      apply (alike.throw hands position).andThen
      intro worth hand otherHand hands
      exact inductionHypothesis hands (total + worth)

theorem throwFactor
    (alike : source.Alike other Related)
    (hands : Hand.Alike Related ahead hand otherHand)
    (rules : Rules)
    (factor : Factor) :
    Thrown.Alike Related ahead
      (source.throwFactor rules factor hand)
      (other.throwFactor rules factor otherHand) := by
  apply (alike.throwSum hands _ _ 0).andThen
  intro sum hand otherHand hands
  exact ⟨rfl, hands⟩

theorem throwProduct
    (alike : source.Alike other Related)
    (hands : Hand.Alike Related ahead hand otherHand)
    (rules : Rules)
    (factors : List Factor)
    (product : Int) :
    Thrown.Alike Related ahead
      (source.throwProduct rules factors product hand)
      (other.throwProduct rules factors product otherHand) := by
  induction factors generalizing product hand otherHand with
  | nil =>
      exact ⟨rfl, hands⟩
  | cons factor factors inductionHypothesis =>
      apply (alike.throwFactor hands rules factor).andThen
      intro value hand otherHand hands
      exact inductionHypothesis hands (product * value)

end Source.Alike

/-- The same outcome, remarks and entries, with related states left. -/
structure Passage.Alike
    (Related : σ → τ → Prop)
    (passage : Passage σ α)
    (other : Passage τ α) :
    Prop where
  outcome : passage.outcome = other.outcome
  remarks : passage.remarks = other.remarks
  entries : passage.entries = other.entries
  left : Related passage.left other.left

theorem Passage.Alike.afterEntry
    {passage : Passage σ α}
    {other : Passage τ α}
    (alike : Passage.Alike Related passage other)
    (entry : Entry) :
    Passage.Alike Related (passage.afterEntry entry) (other.afterEntry entry) where
  outcome := alike.outcome
  remarks := alike.remarks
  entries := congrArg (entry :: ·) alike.entries
  left := alike.left

namespace Source.Alike

variable {source : Source σ} {other : Source τ} {s : σ} {t : τ}

theorem evaluate
    (alike : source.Alike other Related)
    (related : Related s t)
    (rules : Rules)
    (code : DiceCode) :
    Passage.Alike Related
      (source.evaluate rules code s)
      (other.evaluate rules code t) := by
  have hands : Hand.Alike Related #[] { source := s } { source := t } :=
    ⟨related, rfl⟩
  have thrown := alike.throwProduct hands (rules.forCode code) code.factors 1
  unfold Source.evaluate Source.throwCode
  revert thrown
  generalize source.throwProduct (rules.forCode code) code.factors 1 { source := s } = first
  generalize other.throwProduct (rules.forCode code) code.factors 1 { source := t } = second
  rcases first with ⟨outcome, hand⟩
  rcases second with ⟨otherOutcome, otherHand⟩
  rintro ⟨⟨⟩, left, faces⟩
  rw [Array.empty_append] at faces
  have remarks := congrArg (fun faces => faces.toList.map Remark.face) faces
  cases outcome with
  | error fault =>
      exact ⟨rfl, remarks, rfl, left⟩
  | ok product =>
      exact ⟨rfl, remarks, rfl, left⟩

theorem rollText
    (alike : source.Alike other Related)
    (related : Related s t)
    (rules : Rules)
    (text : String) :
    Passage.Alike Related
      (source.rollText rules text s)
      (other.rollText rules text t) := by
  unfold Source.rollText
  cases DiceCode.read? text with
  | error misread =>
      exact ⟨rfl, rfl, rfl, related⟩
  | ok code =>
      exact (alike.evaluate related rules code).afterEntry (readEntry text code)

end Source.Alike

/-- The same end, remarks and notices, with related states left. -/
structure Course.Alike
    (Related : σ → τ → Prop)
    (course : Course σ)
    (other : Course τ) :
    Prop where
  ending : course.ending = other.ending
  remarks : course.remarks = other.remarks
  notices : course.notices = other.notices
  left : Related course.left other.left

theorem Source.Alike.follow
    {source : Source σ}
    {other : Source τ}
    {s : σ}
    {t : τ}
    (alike : source.Alike other Related)
    (related : Related s t)
    (rules : Rules)
    (echo : Bool)
    (codes : List String) :
    Course.Alike Related
      (source.follow rules echo codes s)
      (other.follow rules echo codes t) := by
  induction codes generalizing s t with
  | nil =>
      exact ⟨rfl, rfl, rfl, related⟩
  | cons code codes inductionHypothesis =>
      have rolled := alike.rollText related rules code
      unfold Source.follow
      revert rolled
      rcases source.rollText rules code s with ⟨outcome, remarks, entries, left⟩
      rcases other.rollText rules code t with ⟨otherOutcome, otherRemarks, otherEntries, otherLeft⟩
      rintro ⟨⟨⟩, ⟨⟩, ⟨⟩, leftRelated⟩
      rcases outcome with ((error | digits) | fault) | result
      · exact ⟨rfl, rfl, rfl, leftRelated⟩
      · exact ⟨rfl, rfl, rfl, leftRelated⟩
      · exact ⟨rfl, rfl, rfl, leftRelated⟩
      · rcases inductionHypothesis leftRelated with ⟨ending, spoken, noticed, leftAfter⟩
        exact ⟨ending,
          congrArg (fun more => echoBefore echo code ++ remarks ++
            .result result :: (echoAfter echo ++ more)) spoken,
          congrArg (entries.map Notice.entry ++ ·) noticed, leftAfter⟩

/-- Related states behind notebooks with the same draws. -/
structure Recorded.Alike
    (Related : σ → τ → Prop)
    (noted : Recorded σ)
    (other : Recorded τ) :
    Prop where
  inner : Related noted.inner other.inner
  rolls : noted.rolls = other.rolls

theorem Source.Alike.recorded
    {source : Source σ}
    {other : Source τ}
    (alike : source.Alike other Related) :
    source.recorded.Alike other.recorded (Recorded.Alike Related) where
  answer sides noted otherNoted related := by
    rw [Source.recorded_answer, Source.recorded_answer]
    exact alike.answer sides related.inner
  left sides noted otherNoted related := by
    constructor
    · rw [Source.recorded_inner, Source.recorded_inner]
      exact alike.left sides related.inner
    · rw [Source.recorded_rolls, Source.recorded_rolls, alike.answer sides related.inner,
        related.rolls]
  streak related := alike.streak related.inner

/-- A source cannot be told from itself behind a notebook. -/
theorem Source.alike_recorded (source : Source σ) :
    source.recorded.Alike source fun noted state => noted.inner = state where
  answer sides noted state related := by
    rw [Source.recorded_answer, related]
  left sides noted state related := by
    rw [Source.recorded_inner, related]
  streak related := congrArg source.streak related

theorem Source.Alike.auditCode
    {source : Source σ}
    {other : Source τ}
    {s : σ}
    {t : τ}
    (alike : source.Alike other Related)
    (related : Related s t)
    (title : String)
    (rules : Rules)
    (text : String)
    (code : DiceCode) :
    Passage.Alike Related
      (source.auditCode title rules text code s)
      (other.auditCode title rules text code t) := by
  have noted : Recorded.Alike Related { inner := s } { inner := t } :=
    ⟨related, rfl⟩
  rcases alike.recorded.evaluate noted rules code with ⟨outcome, -, entries, left⟩
  refine ⟨?_, rfl, congrArg (readEntry text code :: ·) entries, left.inner⟩
  unfold Source.auditCode
  simp only [Passage.afterEntry, Passage.unremarked, Passage.mapLeft, Passage.map, outcome,
    left.rolls]

theorem Source.Alike.auditText
    {source : Source σ}
    {other : Source τ}
    {s : σ}
    {t : τ}
    (alike : source.Alike other Related)
    (related : Related s t)
    (title : String)
    (rules : Rules)
    (text : String) :
    Passage.Alike Related
      (source.auditText title rules text s)
      (other.auditText title rules text t) := by
  unfold Source.auditText
  cases DiceCode.read? text with
  | error misread =>
      exact ⟨rfl, rfl, rfl, related⟩
  | ok code =>
      exact alike.auditCode related title rules text code

end

section

variable {σ : Type}
variable (source : Source σ) (rules : Rules) (code : DiceCode) (state : σ)
variable (title text : String)

/-- An audit has the result that rolling comes to, and fails as rolling does. -/
theorem Source.auditCode_total :
    (source.auditCode title rules text code state).outcome.map Audit.total =
      (source.evaluate rules code state).outcome := by
  have noted : ({ inner := state } : Recorded σ).inner = state := rfl
  rw [← (source.alike_recorded.evaluate noted rules code).outcome]
  unfold Source.auditCode
  rcases source.recorded.evaluate rules code { inner := state } with ⟨_ | total, _, _, _⟩ <;> rfl

theorem Source.auditCode_left :
    (source.auditCode title rules text code state).left =
      (source.evaluate rules code state).left := by
  have noted : ({ inner := state } : Recorded σ).inner = state := rfl
  exact (source.alike_recorded.evaluate noted rules code).left

variable {source rules code state}

theorem Source.auditCode_error
    {failure : Failure}
    (failed : (source.evaluate rules code state).outcome = .error failure) :
    (source.auditCode title rules text code state).outcome = .error failure := by
  rw [← source.auditCode_total rules code state title text] at failed
  revert failed
  cases (source.auditCode title rules text code state).outcome with
  | error failure =>
      rintro ⟨⟩
      rfl
  | ok audit =>
      nofun

end

/-- A state together with the sides of every die that was asked for, answered or not. -/
structure Watched (σ : Type) where
  inner : σ
  asked : List Int := []

namespace Source

variable {σ : Type}

/-- The same source with everything written down that it is asked for. -/
def watched (source : Source σ) : Source (Watched σ) where
  draw sides state :=
    ((source.draw sides state.inner).1,
      { inner := (source.draw sides state.inner).2, asked := state.asked ++ [sides] })
  streak state := source.streak state.inner

/-- A source cannot be told from itself under watch. -/
theorem alike_watched (source : Source σ) :
    source.watched.Alike source fun watched state => watched.inner = state where
  answer sides watched state related := by
    rw [← related]
    rfl
  left sides watched state related := by
    rw [← related]
    rfl
  streak related := congrArg source.streak related

end Source

end Tabletop
