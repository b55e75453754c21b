import MarketSentinel.Events.Rules
import MarketSentinel.Signals.Copy

/-!
# The priority of a set of members

* `rank_composePriority`: the priority is the greater of that of the highest severity and a floor
  that the event types set.
* `Generated.breakout`: a breakout has at least the severity of the volume floor.
* `priority_mono`: **more members never lower the priority**, and their order does not matter. A set
  can leave the volume family, whose floor is NOTICE, for the breakout family, which has no floor;
  the severities that the rules emit make up for it.
-/

namespace MarketSentinel

variable {members members' : List MarketEvent} {e : MarketEvent}

/-! ## The order of the members -/

/-- The family does not depend on the order of the members. -/
theorem classifyFamily_perm (h : (members'.map (·.type)).Perm (members.map (·.type))) :
    classifyFamily members' = classifyFamily members := by
  unfold classifyFamily
  simp only [h.mem_iff]

theorem maxSeverity_eq (events : List MarketEvent) :
    maxSeverity events = ((events.map (·.severity)).max?).getD 0 := by
  cases events with
  | nil => rfl
  | cons e es =>
    rw [List.map_cons, List.max?_cons', Option.getD_some, List.foldl_map]
    rfl

/-- Nor does the greatest severity. -/
theorem maxSeverity_perm (h : (members'.map (·.severity)).Perm (members.map (·.severity))) :
    maxSeverity members' = maxSeverity members := by
  have hmax : (members'.map (·.severity)).max? = (members.map (·.severity)).max? := by
    apply Option.ext
    intro m
    rw [List.max?_eq_some_iff, List.max?_eq_some_iff]
    simp only [h.mem_iff]
  rw [maxSeverity_eq, maxSeverity_eq, hmax]

/-- Nor does the priority. -/
theorem composePriority_perm (family : String)
    (ht : (members'.map (·.type)).Perm (members.map (·.type)))
    (hs : (members'.map (·.severity)).Perm (members.map (·.severity))) :
    composePriority members' family = composePriority members family := by
  unfold composePriority
  simp only [ht.mem_iff, maxSeverity_perm hs]

/-! ## The highest severity -/

/-- The greatest severity is that of a member. -/
theorem maxSeverity_spec (hne : members ≠ []) :
    maxSeverity members ∈ members.map (·.severity) ∧ ∀ e ∈ members, e.severity ≤ maxSeverity members := by
  obtain ⟨m, hm⟩ : ∃ m, (members.map (·.severity)).max? = some m :=
    Option.isSome_iff_exists.1 (List.isSome_max?_of_ne_nil fun h => hne (List.map_eq_nil_iff.1 h))
  rw [maxSeverity_eq, hm, Option.getD_some]
  obtain ⟨hmem, hle⟩ := List.max?_eq_some_iff.1 hm
  exact ⟨hmem, fun e he => hle _ (List.mem_map_of_mem he)⟩

/-- It grows with the members. -/
theorem maxSeverity_mono (hne : members ≠ []) (hsub : members ⊆ members') :
    maxSeverity members ≤ maxSeverity members' := by
  obtain ⟨e, he, heq⟩ := List.mem_map.1 (maxSeverity_spec hne).1
  have hne' : members' ≠ [] := List.ne_nil_of_mem (hsub he)
  rw [← heq]
  exact (maxSeverity_spec hne').2 e (hsub he)

/-- A priority grows with the severity. -/
theorem priorityFromSeverity_mono {a b : ℤ} (h : a ≤ b) :
    priorityRank (priorityFromSeverity a) ≤ priorityRank (priorityFromSeverity b) := by
  unfold priorityFromSeverity
  split_ifs <;> first | omega | decide

/-- A severity of three is a notice at least. -/
theorem two_le_rank {severity : ℤ} (h : 3 ≤ severity) : 2 ≤ priorityRank (priorityFromSeverity severity) :=
  @priorityFromSeverity_mono 3 severity h

/-! ## The floor -/

/-- The greater of two priorities. -/
@[simp] theorem rank_maxPriority (a b : SignalPriority) :
    priorityRank (maxPriority a b) = max (priorityRank a) (priorityRank b) := by
  unfold maxPriority
  split <;> omega

/-- Whether some member has one of two types. -/
def HasType (t t' : EventType) (members : List MarketEvent) : Prop :=
  t ∈ members.map (·.type) ∨ t' ∈ members.map (·.type)

instance (t t' : EventType) (members : List MarketEvent) : Decidable (HasType t t' members) :=
  inferInstanceAs (Decidable (_ ∨ _))

/-- A type that occurs goes on occurring. -/
theorem HasType.mono {t t' : EventType} (h : HasType t t' members) (hsub : members ⊆ members') :
    HasType t t' members' :=
  h.imp (fun hm => List.map_subset _ hsub hm) fun hm => List.map_subset _ hsub hm

def HasVolume : List MarketEvent → Prop := HasType .volumeSpike .priceVolumeExpansion

def HasMove : List MarketEvent → Prop := HasType .rapidMove .priceVolumeExpansion

def HasBreakout : List MarketEvent → Prop := HasType .dayHighBreakout .dayLowBreakdown

instance (members : List MarketEvent) : Decidable (HasVolume members) := inferInstanceAs (Decidable (HasType ..))

instance (members : List MarketEvent) : Decidable (HasMove members) := inferInstanceAs (Decidable (HasType ..))

instance (members : List MarketEvent) : Decidable (HasBreakout members) := inferInstanceAs (Decidable (HasType ..))

/-- The floor that the types set: IMPORTANT for volume with a move, NOTICE for volume alone. -/
def floorRank (members : List MarketEvent) : ℕ :=
  if HasVolume members ∧ HasMove members then 3
  else if HasVolume members ∧ ¬ HasBreakout members then 2
  else 1

theorem one_le_rank (p : SignalPriority) : 1 ≤ priorityRank p := by cases p <;> decide

/-- The family by what occurs. -/
theorem classifyFamily_eq (members : List MarketEvent) : classifyFamily members =
    if HasVolume members ∧ HasMove members then "price_volume"
    else if .dayHighBreakout ∈ members.map (·.type) then "breakout"
    else if .dayLowBreakdown ∈ members.map (·.type) then "breakdown"
    else if HasVolume members then "volume"
    else if HasMove members then "move"
    else if .vwapCross ∈ members.map (·.type) then "vwap"
    else "other" := by
  unfold classifyFamily
  simp only [Bool.and_eq_true, decide_eq_true_eq]
  rfl

theorem rank_composePriority_family (members : List MarketEvent) (family : String) :
    priorityRank (composePriority members family).1 =
      if family = "price_volume" ∨ (HasVolume members ∧ HasMove members) then
        max (priorityRank (priorityFromSeverity (maxSeverity members))) 3
      else if family = "volume" then max (priorityRank (priorityFromSeverity (maxSeverity members))) 2
      else priorityRank (priorityFromSeverity (maxSeverity members)) := by
  unfold composePriority
  simp only [decide_eq_true_eq]
  split_ifs <;> first | exact rank_maxPriority .. | rfl | contradiction

/-- **The priority of a set of members.** -/
theorem rank_composePriority (members : List MarketEvent) :
    priorityRank (composePriority members (classifyFamily members)).1 =
      max (priorityRank (priorityFromSeverity (maxSeverity members))) (floorRank members) := by
  have hone := one_le_rank (priorityFromSeverity (maxSeverity members))
  -- A family without a floor.
  have hplain : ∀ family, family ≠ "price_volume" → family ≠ "volume" → ¬ (HasVolume members ∧ HasMove members) →
      floorRank members = 1 → priorityRank (composePriority members family).1 =
        max (priorityRank (priorityFromSeverity (maxSeverity members))) (floorRank members) := by
    intro family hpv hv hboth hfloor
    rw [rank_composePriority_family, if_neg (not_or.2 ⟨hpv, hboth⟩), if_neg hv, hfloor, max_eq_left hone]
  rw [classifyFamily_eq]
  by_cases hboth : HasVolume members ∧ HasMove members
  · have hfloor : floorRank members = 3 := if_pos hboth
    rw [if_pos hboth, rank_composePriority_family, if_pos (.inr hboth), hfloor]
  rw [if_neg hboth]
  have hbreak : HasBreakout members → floorRank members = 1 := fun h => by
    unfold floorRank
    rw [if_neg hboth, if_neg fun h' => h'.2 h]
  by_cases hhigh : .dayHighBreakout ∈ members.map (·.type)
  · rw [if_pos hhigh]
    exact hplain _ (by decide) (by decide) hboth (hbreak (.inl hhigh))
  by_cases hlow : .dayLowBreakdown ∈ members.map (·.type)
  · rw [if_neg hhigh, if_pos hlow]
    exact hplain _ (by decide) (by decide) hboth (hbreak (.inr hlow))
  rw [if_neg hhigh, if_neg hlow]
  by_cases hvol : HasVolume members
  · have hfloor : floorRank members = 2 := by
      unfold floorRank
      rw [if_neg hboth, if_pos ⟨hvol, not_or.2 ⟨hhigh, hlow⟩⟩]
    have hvolume : ¬ ("volume" = "price_volume" ∨ HasVolume members ∧ HasMove members) :=
      not_or.2 ⟨by decide, hboth⟩
    rw [if_pos hvol, rank_composePriority_family, if_neg hvolume, if_pos rfl, hfloor]
  · have hfloor : floorRank members = 1 := by
      unfold floorRank
      rw [if_neg hboth, if_neg fun h => hvol h.1]
    rw [if_neg hvol]
    split_ifs
    · exact hplain _ (by decide) (by decide) hboth hfloor
    · exact hplain _ (by decide) (by decide) hboth hfloor
    · exact hplain _ (by decide) (by decide) hboth hfloor

/-! ## What the rules emit -/

/-- An event that the rules can emit. -/
def Generated (e : MarketEvent) : Prop :=
  ∃ newId detectedAt previous current, e ∈ evaluate newId detectedAt previous current

/-- A breakout has a severity of three at least. -/
theorem three_le_breakoutSeverity (excess : ℚ) : 3 ≤ breakoutSeverity excess := by
  unfold breakoutSeverity
  split_ifs <;> decide

/-- **A breakout is at least a NOTICE.** -/
theorem Generated.breakout (h : Generated e) (ht : e.type = .dayHighBreakout ∨ e.type = .dayLowBreakdown) :
    3 ≤ e.severity := by
  obtain ⟨newId, detectedAt, previous, current, he⟩ := h
  obtain ⟨rule, hrule, he⟩ := List.mem_flatMap.1 he
  have htype : ∀ {t : EventType}, Emits t rule → e.type = t := by
    intro t hemits
    rcases hemits newId previous current detectedAt with hnil | ⟨e', hone, ht', -⟩
    · rw [hnil] at he
      cases he
    · rw [hone, List.mem_singleton] at he
      rw [he]
      exact ht'
  -- The four other rules emit other types.
  have hother : ∀ {t : EventType}, Emits t rule → t ≠ .dayHighBreakout → t ≠ .dayLowBreakdown → 3 ≤ e.severity := by
    intro t hemits hhigh hlow
    rw [htype hemits] at ht
    exact absurd ht (not_or.2 ⟨hhigh, hlow⟩)
  unfold defaultRules at hrule
  simp only [List.mem_cons, List.not_mem_nil, or_false] at hrule
  rcases hrule with rfl | rfl | rfl | rfl | rfl | rfl
  · exact hother rapidMoveRule_emits (by decide) (by decide)
  · exact hother volumeSpikeRule_emits (by decide) (by decide)
  · exact hother priceVolumeExpansionRule_emits (by decide) (by decide)
  · unfold dayHighBreakoutRule at he
    dsimp only at he
    split at he
    · cases he
    · split_ifs at he
      · cases he
      · cases he
      · rw [List.mem_singleton.1 he]
        exact three_le_breakoutSeverity _
  · unfold dayLowBreakdownRule at he
    dsimp only at he
    split at he
    · cases he
    · split_ifs at he
      · cases he
      · cases he
      · rw [List.mem_singleton.1 he]
        exact three_le_breakoutSeverity _
  · exact hother vwapCrossRule_emits (by decide) (by decide)

/-! ## Monotonicity -/

/-- With more members that the rules can emit, a lower floor is made up for by a breakout. -/
theorem floorRank_le {members members' : List MarketEvent} (hsub : members ⊆ members')
    (hgen : ∀ e ∈ members', Generated e) :
    floorRank members ≤ max (priorityRank (priorityFromSeverity (maxSeverity members'))) (floorRank members') := by
  have hone := one_le_rank (priorityFromSeverity (maxSeverity members'))
  by_cases hvol : HasVolume members
  · have hvol' : HasVolume members' := HasType.mono hvol hsub
    by_cases hmove : HasMove members
    · have hmove' : HasMove members' := HasType.mono hmove hsub
      have hfloor : floorRank members' = 3 := if_pos ⟨hvol', hmove'⟩
      rw [hfloor]
      unfold floorRank
      split_ifs <;> omega
    · -- Without a move the floor is 2 at most, and a breakout among the members has the severity for that.
      have htwo : floorRank members ≤ 2 := by
        unfold floorRank
        rw [if_neg fun h => hmove h.2]
        split_ifs <;> omega
      refine htwo.trans ?_
      by_cases hbreak : HasBreakout members'
      · obtain ⟨e, he, hsev⟩ : ∃ e ∈ members', 3 ≤ e.severity := by
          rcases hbreak with hhigh | hlow
          · obtain ⟨e, he, ht⟩ := List.mem_map.1 hhigh
            exact ⟨e, he, (hgen e he).breakout (.inl ht)⟩
          · obtain ⟨e, he, ht⟩ := List.mem_map.1 hlow
            exact ⟨e, he, (hgen e he).breakout (.inr ht)⟩
        have hmax := (maxSeverity_spec (List.ne_nil_of_mem he)).2 e he
        exact le_max_of_le_left (two_le_rank (hsev.trans hmax))
      · refine le_max_of_le_right ?_
        unfold floorRank
        split_ifs with h1 h2
        · omega
        · omega
        · exact absurd ⟨hvol', hbreak⟩ h2
  · have hfloor : floorRank members = 1 := by
      unfold floorRank
      rw [if_neg fun h => hvol h.1, if_neg fun h => hvol h.1]
    rw [hfloor]
    exact le_max_of_le_left hone

/-- **More members never lower the priority, and their order does not matter.** Nothing needs to be
said of the lineage and the directions of the members. -/
theorem priority_mono {S T : List MarketEvent} (hS : S ≠ []) (hsub : S ⊆ T) (hgen : ∀ e ∈ T, Generated e) :
    priorityRank (composePriority S (classifyFamily S)).1 ≤ priorityRank (composePriority T (classifyFamily T)).1 ∧
      ∀ S', S'.Perm S →
        (composePriority S' (classifyFamily S')).1 = (composePriority S (classifyFamily S)).1 := by
  refine ⟨?_, fun S' hperm => ?_⟩
  · rw [rank_composePriority, rank_composePriority]
    have hbase := priorityFromSeverity_mono (maxSeverity_mono hS hsub)
    exact max_le (le_max_of_le_left hbase) (floorRank_le hsub hgen)
  · rw [classifyFamily_perm (hperm.map _), composePriority_perm _ (hperm.map _) (hperm.map _)]

/-- A quote with twice the usual volume, a little above the day's high. -/
def breakingFeatures : MarketFeatures where
  symbol := "A"
  marketTimestamp := 100
  receivedTimestamp := 101
  change1m := none
  change5m := none
  change15m := none
  changeDay := none
  dayRangePosition := none
  volume1m := none
  volume5m := none
  volumeRatio1m := none
  volumeRatio5m := some 2
  vwap := none
  aboveVwap := none
  ema5 := none
  ema20 := none
  rsi14 := none
  sessionHighRef := some 1000
  sessionLowRef := none
  sessionHighObs := 1001
  sessionLowObs := 1001

/-- Its events: a volume spike, and a breakout that takes the episode out of the volume family. -/
def breakingEvents : List MarketEvent := evaluate EventType.value 102 none breakingFeatures

theorem priority_mono_breaking :
    (breakingEvents.take 1).map (·.type) = [.volumeSpike] ∧
      breakingEvents.map (·.type) = [.volumeSpike, .dayHighBreakout] ∧
      priorityRank (composePriority (breakingEvents.take 1) (classifyFamily (breakingEvents.take 1))).1 ≤
        priorityRank (composePriority breakingEvents (classifyFamily breakingEvents)).1 := by
  have hS : breakingEvents.take 1 ≠ [] := by decide +kernel
  have hgen : ∀ e ∈ breakingEvents, Generated e := fun e he => ⟨_, _, _, _, he⟩
  exact ⟨by decide +kernel, by decide +kernel, (priority_mono hS (List.take_subset 1 _) hgen).1⟩

end MarketSentinel
