import Tabletop.Journal

namespace Tabletop

open List

/-!
# The journal of a hierarchy of channels

Channels lie below one another by the dots in their names. An entry arrives at the
desk of its own channel and goes on to the desks above, until one of them passes
nothing on; the least severity that counts for it is the nearest one that is set.
Where only one channel has a desk of its own, this is what that desk does alone
(`dotted_textsFor`), and of all the ways in which the desk was configured only the
last one is left.
-/

/-- Whether a channel lies below another one: its name goes on behind a dot. -/
def Channel.Below (lower upper : String) : Prop :=
  ∃ rest, lower.toList = upper.toList ++ '.' :: rest

theorem Channel.Below.ne
    {lower upper : String}
    (below : Channel.Below lower upper) :
    lower ≠ upper := by
  rintro rfl
  obtain ⟨rest, shape⟩ := below
  have longer := congrArg length shape
  simp at longer

/--
What lies above each channel, nearest first. A hierarchy need not know every name that
ends before a dot.
-/
structure Hierarchy where
  above : String → List String
  climbs : ∀ channel, (channel :: above channel).Pairwise Channel.Below

namespace Hierarchy

variable (hierarchy : Hierarchy) (desks : String → Desk)

/-- The channels at which an entry may arrive, in the order in which it does. -/
def line (channel : String) : List String :=
  channel :: hierarchy.above channel

/-- The nearest least severity that is set. -/
def levelAlong : List String → Int
  | [] => Desk.inheritedLevel
  | channel :: above =>
      if (desks channel).level = 0 then levelAlong above else (desks channel).level

/-- The writers at all desks at which an entry arrives. -/
def writersAlong : List String → Nat
  | [] => 0
  | channel :: above =>
      (desks channel).writers + if (desks channel).passesOn then writersAlong above else 0

/-- The texts that all desks together write for one entry. -/
def textsFor (entry : Entry) : List String :=
  if 0 < entry.severity ∧ levelAlong desks (hierarchy.line entry.channel) ≤ entry.severity then
    replicate (writersAlong desks (hierarchy.line entry.channel)) entry.text
  else
    []

/-- The text that all desks together write for a list of entries. -/
def written (entries : List Entry) : String :=
  String.join (entries.flatMap (hierarchy.textsFor desks))

theorem line_nodup (channel : String) : (hierarchy.line channel).Nodup :=
  (hierarchy.climbs channel).imp Channel.Below.ne

theorem eq_or_below_of_mem_line
    {channel upper : String}
    (member : upper ∈ hierarchy.line channel) :
    channel = upper ∨ Channel.Below channel upper := by
  rcases mem_cons.mp member with rfl | member
  · exact .inl rfl
  · exact .inr (rel_of_pairwise_cons (hierarchy.climbs channel) member)

end Hierarchy

namespace Desk

/-- The desks of all channels where the one that is looked after is the only one ever configured. -/
def alone
    (desk : Desk)
    (channel : String) :
    Desk :=
  if channel = Channel.all then desk else {}

variable (desk : Desk)

theorem alone_all : desk.alone Channel.all = desk :=
  if_pos rfl

theorem alone_other
    {channel : String}
    (other : channel ≠ Channel.all) :
    desk.alone channel = {} :=
  if_neg other

theorem oversees_iff (channel : String) :
    oversees channel = true ↔ channel = Channel.all ∨ Channel.Below channel Channel.all := by
  have dotted : (Channel.all ++ ".").toList = Channel.all.toList ++ ['.'] := by
    rfl
  unfold oversees Channel.Below
  rw [Bool.or_eq_true, decide_eq_true_iff, isPrefixOf_iff_prefix, dotted, prefix_iff_exists_eq_append]
  simp

example : oversees "diecodes.parser" = true ∧ oversees "diecodesx" = false := by
  decide

end Desk

namespace Hierarchy

variable {desk : Desk} {line : List String}

/-- Where the configured channel is not on the way, nothing is set and nobody writes. -/
theorem along_of_absent (absent : Channel.all ∉ line) :
    levelAlong desk.alone line = Desk.inheritedLevel ∧ writersAlong desk.alone line = 0 := by
  induction line with
  | nil =>
      exact ⟨rfl, rfl⟩
  | cons channel above inductionHypothesis =>
      have other := ne_of_not_mem_cons absent
      obtain ⟨level, writers⟩ := inductionHypothesis (not_mem_of_not_mem_cons absent)
      unfold levelAlong writersAlong
      rw [desk.alone_other (Ne.symm other), level, writers]
      exact ⟨rfl, rfl⟩

/-- Where the configured channel is on the way, its desk decides as if it were alone. -/
theorem along_of_mem
    (distinct : line.Nodup)
    (member : Channel.all ∈ line) :
    levelAlong desk.alone line = desk.effectiveLevel ∧
      writersAlong desk.alone line = desk.writers := by
  induction line with
  | nil =>
      cases member
  | cons channel above inductionHypothesis =>
      obtain ⟨fresh, distinct⟩ := nodup_cons.mp distinct
      unfold levelAlong writersAlong
      by_cases here : channel = Channel.all
      · -- Above the configured channel no other level is set, and nobody else writes.
        rw [here] at fresh
        obtain ⟨level, writers⟩ := along_of_absent fresh
        rw [here, desk.alone_all, level, writers, ite_self]
        exact ⟨rfl, rfl⟩
      · have above := (mem_cons.mp member).resolve_left (Ne.symm here)
        obtain ⟨level, writers⟩ := inductionHypothesis distinct above
        rw [desk.alone_other here, level, writers]
        exact ⟨rfl, Nat.zero_add _⟩

variable (hierarchy : Hierarchy)

theorem textsFor_of_absent
    {entry : Entry}
    (absent : Channel.all ∉ hierarchy.line entry.channel) :
    hierarchy.textsFor desk.alone entry = [] := by
  unfold textsFor
  rw [(along_of_absent absent).2]
  exact ite_self []

theorem textsFor_of_mem
    {entry : Entry}
    (member : Channel.all ∈ hierarchy.line entry.channel) :
    hierarchy.textsFor desk.alone entry = desk.textsFor entry := by
  obtain ⟨level, writers⟩ := along_of_mem (hierarchy.line_nodup _) member
  have overseen : Desk.oversees entry.channel = true :=
    (Desk.oversees_iff _).mpr (hierarchy.eq_or_below_of_mem_line member)
  unfold textsFor Desk.textsFor Desk.admits
  rw [level, writers, overseen]
  simp

/-- The names that end before a dot of another name, shortest first. -/
def dottedPrefixes : List Char → List (List Char)
  | [] => []
  | c :: cs => (if c = '.' then [[]] else []) ++ (dottedPrefixes cs).map (c :: ·)

theorem mem_dottedPrefixes {cs upper : List Char} :
    upper ∈ dottedPrefixes cs ↔ ∃ rest, cs = upper ++ '.' :: rest := by
  induction cs generalizing upper with
  | nil =>
      simp [dottedPrefixes]
  | cons c cs inductionHypothesis =>
      cases upper with
      | nil =>
          simp [dottedPrefixes]
      | cons d upper =>
          have split : d :: upper ∈ dottedPrefixes (c :: cs) ↔ upper ∈ dottedPrefixes cs ∧ c = d := by
            simp [dottedPrefixes]
          simp [split, inductionHypothesis, and_comm]

theorem dottedPrefixes_pairwise (cs : List Char) :
    (dottedPrefixes cs).Pairwise fun upper lower => ∃ rest, lower = upper ++ '.' :: rest := by
  induction cs with
  | nil =>
      exact .nil
  | cons c cs inductionHypothesis =>
      have behind :
          ((dottedPrefixes cs).map (c :: ·)).Pairwise
            fun upper lower => ∃ rest, lower = upper ++ '.' :: rest := by
        refine pairwise_map.mpr (inductionHypothesis.imp ?_)
        rintro upper _ ⟨rest, rfl⟩
        exact ⟨rest, rfl⟩
      refine pairwise_append.mpr ⟨?_, behind, ?_⟩
      · split
        · exact pairwise_singleton _ _
        · exact .nil
      · intro first firstMember lower lowerMember
        split at firstMember
        next dot =>
          obtain rfl := mem_singleton.mp firstMember
          obtain ⟨rest, -, rfl⟩ := mem_map.mp lowerMember
          exact ⟨rest, congrArg (· :: rest) dot⟩
        next noDot =>
          cases firstMember

/-- The hierarchy in which every name that ends before a dot is a channel. -/
def dotted : Hierarchy where
  above channel := ((dottedPrefixes channel.toList).map String.ofList).reverse
  climbs channel := by
    refine pairwise_cons.mpr ⟨?_, ?_⟩
    · intro upper member
      obtain ⟨name, nameMember, rfl⟩ := mem_map.mp (mem_reverse.mp member)
      unfold Channel.Below
      rw [String.toList_ofList]
      exact mem_dottedPrefixes.mp nameMember
    · refine pairwise_reverse.mpr (pairwise_map.mpr ((dottedPrefixes_pairwise _).imp ?_))
      intro upper lower below
      unfold Channel.Below
      rw [String.toList_ofList, String.toList_ofList]
      exact below

theorem all_mem_dotted_line
    {channel : String}
    (overseen : Desk.oversees channel = true) :
    Channel.all ∈ dotted.line channel := by
  rcases (Desk.oversees_iff channel).mp overseen with rfl | below
  · exact .head _
  · refine .tail _ (mem_reverse.mpr (mem_map.mpr ⟨_, mem_dottedPrefixes.mpr below, ?_⟩))
    exact String.ofList_toList

/-- What a desk writes alone is what is written in the hierarchy where only it was configured. -/
theorem dotted_textsFor
    (desk : Desk)
    (entry : Entry) :
    dotted.textsFor desk.alone entry = desk.textsFor entry := by
  by_cases overseen : Desk.oversees entry.channel = true
  · exact textsFor_of_mem dotted (all_mem_dotted_line overseen)
  · have absent : Channel.all ∉ dotted.line entry.channel := by
      intro member
      exact overseen ((Desk.oversees_iff _).mpr (dotted.eq_or_below_of_mem_line member))
    have notAdmitted : desk.admits entry = false := by
      simp [Desk.admits, overseen]
    rw [textsFor_of_absent dotted absent, Desk.textsFor, notAdmitted]
    rfl

end Hierarchy

/-- A text that holds one text at most for each of the entries, in their order. -/
def WrittenOnce
    (entries : List Entry)
    (text : String) :
    Prop :=
  ∃ written, written <+ entries ∧ text = String.join (written.map Entry.text)

/-- Whether a desk is as it was last configured, with one writer. -/
structure Desk.ConfiguredFor
    (desk : Desk)
    (threshold : Threshold) :
    Prop where
  level : desk.level = threshold.level
  oneWriter : desk.writers = 1
  passesNothingOn : desk.passesOn = false

theorem flatMap_of_oneEach
    {α β : Type}
    {several : α → List β}
    {chosen : α → Bool}
    {single : α → β}
    (each : ∀ item, several item = if chosen item then [single item] else [])
    (items : List α) :
    items.flatMap several = (items.filter chosen).map single := by
  induction items with
  | nil =>
      rfl
  | cons item items inductionHypothesis =>
      rw [flatMap_cons, filter_cons, each, inductionHypothesis]
      split <;> rfl

namespace Desk

variable {desk : Desk} {threshold : Threshold}

/-- Configures a desk several times. -/
def configureAll
    (thresholds : List Threshold)
    (desk : Desk) :
    Desk :=
  thresholds.foldl (fun desk threshold => desk.configure threshold) desk

/-- Whatever writers and levels a desk had before, nothing of them is left. -/
theorem configureAll_concat
    (thresholds : List Threshold)
    (last : Threshold)
    (before fresh : Desk) :
    configureAll (thresholds ++ [last]) before = configure last fresh := by
  unfold configureAll
  rw [foldl_append]
  rfl

theorem configure_configuredFor
    (threshold : Threshold)
    (desk : Desk) :
    (configure threshold desk).ConfiguredFor threshold where
  level := rfl
  oneWriter := rfl
  passesNothingOn := rfl

namespace ConfiguredFor

variable (configured : desk.ConfiguredFor threshold)

include configured

theorem textsFor
    (entry : Entry) :
    desk.textsFor entry = if desk.admits entry then [entry.text] else [] := by
  unfold Desk.textsFor
  rw [configured.oneWriter]
  rfl

theorem written (entries : List Entry) :
    desk.written entries = String.join ((entries.filter desk.admits).map Entry.text) :=
  congrArg String.join (flatMap_of_oneEach configured.textsFor entries)

theorem admits_iff (entry : Entry) :
    desk.admits entry = true ↔
      (entry.channel = Channel.all ∨ Channel.Below entry.channel Channel.all) ∧
        0 < entry.severity ∧
        (if threshold.level = 0 then Severity.warning else threshold.level) ≤ entry.severity := by
  unfold admits effectiveLevel
  rw [configured.level, Bool.and_eq_true, Bool.and_eq_true, oversees_iff, decide_eq_true_iff,
    decide_eq_true_iff, and_assoc]
  rfl

theorem hierarchy_written
    (hierarchy : Hierarchy)
    (entries : List Entry) :
    WrittenOnce (entries.filter desk.admits) (hierarchy.written desk.alone entries) := by
  let arrives (entry : Entry) : Bool := decide (Channel.all ∈ hierarchy.line entry.channel)
  have each (entry : Entry) :
      hierarchy.textsFor desk.alone entry =
        if arrives entry && desk.admits entry then [entry.text] else [] := by
    by_cases member : Channel.all ∈ hierarchy.line entry.channel
    · have arrived : arrives entry = true := decide_eq_true member
      rw [hierarchy.textsFor_of_mem member, arrived, Bool.true_and, configured.textsFor]
    · have missed : arrives entry = false := decide_eq_false member
      rw [hierarchy.textsFor_of_absent member, missed, Bool.false_and]
      rfl
  -- A channel that is cut off can lose its entries, but none is written that the desk refuses.
  refine ⟨(entries.filter desk.admits).filter arrives, filter_sublist, ?_⟩
  rw [filter_filter]
  exact congrArg String.join (flatMap_of_oneEach each entries)

end ConfiguredFor

/--
Of all the ways in which a desk was configured only the last one counts, for its level,
its writers and what it passes on, and for all that is written for any entries. There is
one writer then, and each entry is written once at most, and only if it was made on the
desk's own channel or below it, whichever names between the dots are channels, too.
-/
theorem lastConfiguration_counts
    (thresholds : List Threshold)
    (last : Threshold)
    (before fresh : Desk)
    (entries : List Entry)
    (hierarchy : Hierarchy) :
    let desk := configureAll (thresholds ++ [last]) before
    let again := configure last fresh
    (desk.ConfiguredFor last ∧ again.ConfiguredFor last) ∧
      (desk.written entries = again.written entries ∧
        hierarchy.written desk.alone entries = hierarchy.written again.alone entries) ∧
      Hierarchy.dotted.written desk.alone entries = desk.written entries ∧
      desk.written entries = String.join ((entries.filter desk.admits).map Entry.text) ∧
      WrittenOnce (entries.filter desk.admits) (hierarchy.written desk.alone entries) ∧
      ∀ entry,
        desk.admits entry = true ↔
          (entry.channel = Channel.all ∨ Channel.Below entry.channel Channel.all) ∧
            0 < entry.severity ∧
            (if last.level = 0 then Severity.warning else last.level) ≤ entry.severity := by
  intro desk again
  have same : desk = again := configureAll_concat thresholds last before fresh
  have configured : again.ConfiguredFor last := configure_configuredFor last fresh
  have alone : Hierarchy.dotted.textsFor again.alone = again.textsFor :=
    funext (Hierarchy.dotted_textsFor again)
  rw [same]
  refine ⟨⟨configured, configured⟩, ⟨rfl, rfl⟩, ?_, ?_, ?_, ?_⟩
  · unfold Hierarchy.written Desk.written
    rw [alone]
  · exact configured.written entries
  · exact configured.hierarchy_written hierarchy entries
  · exact configured.admits_iff

end Desk

end Tabletop
