import MarketSentinel.Telemetry.Notes

/-!
# The notes of a call, counted

`Telemetry/Notes` lists what a `process` call reports. Here is what the list holds: which notes name a signal, how
often an event is reported as clustered, and what the tracker and the gate make of it.

* `mem_newlyClustered`, `mem_trackedAfter`: the events that the tracker gives out, and those it has seen.
* `filter_episodeNotes`, `filter_alertNotes`: the notes of one signal.
* `countP_episodeNotes`: the notes that report an event as clustered.
-/

namespace MarketSentinel

open Lib Machine SignalComposer SignalPipeline

namespace TelemetryEvent

/-- The record has this name. -/
def isNamed (name : TelemetryName) (e : TelemetryEvent) : Bool := e.name = name

/-- The record is about this signal. -/
def isAbout (signalId : String) (e : TelemetryEvent) : Bool := e.signalId = some signalId

/-- The signal was alerted or suppressed. -/
def isAlert (e : TelemetryEvent) : Bool := e.isNamed .alertCandidate || e.isNamed .alertSuppressed

/-- The record of an event that was clustered. -/
def clusters (eventId : String) (e : TelemetryEvent) : Bool :=
  e.isNamed .eventClustered && decide (e.eventId = some eventId)

theorem isAbout_iff {signalId : String} {e : TelemetryEvent} :
    e.isAbout signalId ↔ e.signalId = some signalId := decide_eq_true_iff

end TelemetryEvent

open TelemetryEvent

/-- One of the signals has the event and another one as members. -/
def Clusters (signals : List Signal) (eventId : String) : Prop :=
  ∃ s ∈ signals, eventId ∈ s.eventIds ∧ ∃ other ∈ s.eventIds, other ≠ eventId

instance (signals : List Signal) (eventId : String) : Decidable (Clusters signals eventId) := by
  unfold Clusters
  infer_instance

/-- The last of the signals with an id. -/
def LastOf (signals : List Signal) (id : String) (s : Signal) : Prop :=
  s.id = id ∧ ∃ pre post, signals = pre ++ s :: post ∧ ∀ s' ∈ post, s'.id ≠ id

/-! ## The tracker and the gate -/

/-- Duplicates are erased. -/
theorem nodup_eraseDups (ids : List String) : ids.eraseDups.Nodup := by
  generalize hlen : ids.length = n
  induction n using Nat.strong_induction_on generalizing ids with
  | _ n ih =>
    cases ids with
    | nil => exact List.nodup_nil
    | cons i ids =>
      rw [List.eraseDups_cons, List.nodup_cons]
      refine ⟨fun hi => ?_, ih _ ?_ _ rfl⟩
      · have hne := (List.mem_filter.1 (List.mem_eraseDups.1 hi)).2
        simp at hne
      · have hle := List.length_filter_le (fun j => !j == i) ids
        rw [List.length_cons] at hlen
        omega

/-- An id without company is the only one. -/
theorem eq_singleton_of_eraseDups {ids : List String} {i : String} (hi : i ∈ ids)
    (hlen : ids.eraseDups.length < 2) : ∀ j ∈ ids, j = i := by
  intro j hj
  have hi' := List.mem_eraseDups.2 hi
  have hj' := List.mem_eraseDups.2 hj
  match hids : ids.eraseDups with
  | [] => rw [hids] at hi'; exact absurd hi' List.not_mem_nil
  | [k] =>
    rw [hids, List.mem_singleton] at hi' hj'
    exact hj'.trans hi'.symm
  | _ :: _ :: _ => rw [hids] at hlen; simp only [List.length_cons] at hlen; omega

/-- The tracker reports the members that are new to it, when there are several members. -/
theorem mem_newlyClustered {tracked ids : List String} {i : String} :
    i ∈ (newlyClustered tracked ids).1 ↔ i ∉ tracked ∧ i ∈ ids ∧ ∃ j ∈ ids, j ≠ i := by
  unfold newlyClustered
  dsimp only
  split
  · rename_i hlen
    constructor
    · exact fun h => absurd h List.not_mem_nil
    · rintro ⟨-, hi, j, hj, hne⟩
      exact absurd (eq_singleton_of_eraseDups hi hlen j hj) hne
  · rename_i hlen
    simp only [List.mem_filter, List.mem_eraseDups, decide_eq_true_eq]
    constructor
    · rintro ⟨hi, hnew⟩
      refine ⟨hnew, hi, ?_⟩
      by_contra hall
      push Not at hall
      -- All members equal: the unique ids are at most one.
      have hunique : ∀ j ∈ ids.eraseDups, j = i := fun j hj => hall j (List.mem_eraseDups.1 hj)
      have hnd : ids.eraseDups.Nodup := nodup_eraseDups _
      have hle := List.nodup_replicate.1 ((List.eq_replicate_iff.2 ⟨rfl, hunique⟩) ▸ hnd)
      omega
    · rintro ⟨hnew, hi, -⟩
      exact ⟨hi, hnew⟩

/-- The tracker gives no event out twice. -/
theorem newlyClustered_nodup (tracked ids : List String) : (newlyClustered tracked ids).1.Nodup := by
  unfold newlyClustered
  dsimp only
  split
  · exact List.nodup_nil
  · exact List.Nodup.filter _ (nodup_eraseDups _)

/-- It has seen what it gives out. -/
theorem newlyClustered_tracked (tracked ids : List String) :
    (newlyClustered tracked ids).2 = tracked ++ (newlyClustered tracked ids).1 := by
  unfold newlyClustered
  dsimp only
  split
  · simp
  · rfl

/-- The tracked ids are those that were clustered. -/
theorem mem_trackedAfter {i : String} : ∀ {signals : List Signal} {tracked : List String},
    i ∈ trackedAfter tracked signals ↔ i ∈ tracked ∨ Clusters signals i := by
  intro signals
  induction signals with
  | nil => intro tracked; simp [trackedAfter, Clusters]
  | cons s signals ih =>
    intro tracked
    have hhead : Clusters (s :: signals) i ↔
        (i ∈ s.eventIds ∧ ∃ j ∈ s.eventIds, j ≠ i) ∨ Clusters signals i := by simp [Clusters]
    have hrest := @ih (newlyClustered tracked s.eventIds).2
    unfold trackedAfter at hrest ⊢
    rw [List.foldl_cons, hrest, newlyClustered_tracked, List.mem_append, mem_newlyClustered, hhead, ← or_assoc]
    by_cases htracked : i ∈ tracked
    · simp [htracked]
    · simp only [htracked, not_false_eq_true, true_and]

/-- Clusters are reported once. -/
theorem countP_clusterNotes {tracked : List String} {s : Signal} {i : String} :
    (clusterNotes tracked s).countP (fun n => n.record.clusters i) =
      if i ∈ (newlyClustered tracked s.eventIds).1 then 1 else 0 := by
  have hcount := List.Nodup.count (a := i) (newlyClustered_nodup tracked s.eventIds)
  rw [← hcount, List.count, clusterNotes, List.countP_map]
  refine List.countP_congr fun j _ => ?_
  simp [Note.record, Note.fields, clusteredFields, clusters, isNamed]

/-- The gate knows only the ids that it was asked about. -/
theorem gateAfter_last {monotonic : String → ℚ} {id : String} : ∀ {signals : List Signal} {g : CooldownGate},
    ((gateAfter monotonic g signals).last.get? id).isSome →
      (g.last.get? id).isSome ∨ ∃ s ∈ signals, s.id = id := by
  intro signals
  induction signals with
  | nil => intro g h; exact .inl h
  | cons s signals ih =>
    intro g h
    rcases ih (g := (g.allow (monotonic s.id) s.id s.priority).2) h with h | ⟨s', hs', hid⟩
    · by_cases hid : s.id = id
      · exact .inr ⟨s, List.mem_cons_self, hid⟩
      · unfold CooldownGate.allow at h
        split at h
        · rw [Dict.get?_set, if_neg (Ne.symm hid)] at h
          exact .inl h
        · exact .inl h
    · exact .inr ⟨s', List.mem_cons_of_mem _ hs', hid⟩

/-! ## The notes of a call -/

/-- The notes of the detection are about events. -/
theorem mem_detectNotes {d : EventDeduper} {events : List MarketEvent} {n : Note}
    (hn : n ∈ detectNotes d events) : ∃ event, n = .generated event ∨ n = .deduped event := by
  induction events generalizing d with
  | nil => exact absurd hn List.not_mem_nil
  | cons event events ih =>
    unfold detectNotes at hn
    rcases List.mem_cons.1 hn with rfl | hn
    · exact ⟨event, .inl rfl⟩
    · rcases List.mem_append.1 hn with hn | hn
      · split at hn
        · exact absurd hn List.not_mem_nil
        · exact ⟨event, .inr (List.mem_singleton.1 hn)⟩
      · exact ih hn

/-- Every detected event is reported as generated. -/
theorem countP_generated (d : EventDeduper) (events : List MarketEvent) :
    (detectNotes d events).countP (fun n => n.record.isNamed .eventGenerated) = events.length := by
  induction events generalizing d with
  | nil => rfl
  | cons event events ih =>
    unfold detectNotes
    rw [List.countP_cons, List.countP_append, ih]
    have hnone : (if (d.accept event).1 then [] else [Note.deduped event]).countP
        (fun n => n.record.isNamed .eventGenerated) = 0 := by
      split <;> rfl
    rw [hnone, Nat.zero_add]
    rfl

theorem isNamed_deduped (n : Note) : n.record.isNamed .eventDeduped = n.isDeduped := by
  cases n <;> rfl

/-- A signal is created, or it escalates. -/
theorem mem_episodeNote {prior : List (String × SignalPriority)} {s : Signal} {n : Note}
    (hn : n ∈ episodeNote prior s) : n = .created s ∧ prior.lookup s.id = none ∨
      ∃ previous, n = .escalated s ∧ prior.lookup s.id = some previous ∧
        priorityRank previous < priorityRank s.priority := by
  unfold episodeNote at hn
  cases hprior : prior.lookup s.id with
  | none =>
    rw [hprior] at hn
    exact .inl ⟨List.mem_singleton.1 hn, rfl⟩
  | some previous =>
    rw [hprior] at hn
    dsimp only at hn
    split at hn
    · exact .inr ⟨previous, List.mem_singleton.1 hn, rfl, ‹_›⟩
    · exact absurd hn List.not_mem_nil

/-- A clustered event is noted with its signal. -/
theorem mem_clusterNotes {tracked : List String} {s : Signal} {n : Note} (hn : n ∈ clusterNotes tracked s) :
    ∃ i, n = .clustered s i := by
  obtain ⟨i, -, rfl⟩ := List.mem_map.1 hn
  exact ⟨i, rfl⟩

/-- The notes of the episodes are about the signals of the call. -/
theorem mem_episodeNotes {prior : List (String × SignalPriority)} {n : Note} :
    ∀ {signals : List Signal} {tracked : List String}, n ∈ episodeNotes prior tracked signals →
      ∃ s ∈ signals, n ∈ episodeNote prior s ∨ ∃ i, n = .clustered s i := by
  intro signals
  induction signals with
  | nil => intro tracked hn; exact absurd hn List.not_mem_nil
  | cons s signals ih =>
    intro tracked hn
    unfold episodeNotes at hn
    rw [List.append_assoc] at hn
    rcases List.mem_append.1 hn with hn | hn
    · exact ⟨s, List.mem_cons_self, .inl hn⟩
    · rcases List.mem_append.1 hn with hn | hn
      · exact ⟨s, List.mem_cons_self, .inr (mem_clusterNotes hn)⟩
      · obtain ⟨s', hs', hn⟩ := ih hn
        exact ⟨s', List.mem_cons_of_mem _ hs', hn⟩

/-- So are the notes of the alerts. -/
theorem mem_alertNotes {monotonic : String → ℚ} {n : Note} : ∀ {signals : List Signal} {g : CooldownGate},
    n ∈ alertNotes monotonic g signals → ∃ s ∈ signals, n = .candidate s ∨ n = .suppressed s .cooldown := by
  intro signals
  induction signals with
  | nil => intro g hn; exact absurd hn List.not_mem_nil
  | cons s signals ih =>
    intro g hn
    unfold alertNotes at hn
    rcases List.mem_cons.1 hn with rfl | hn
    · refine ⟨s, List.mem_cons_self, ?_⟩
      split
      · exact .inl rfl
      · exact .inr rfl
    · obtain ⟨s', hs', hn⟩ := ih hn
      exact ⟨s', List.mem_cons_of_mem _ hs', hn⟩

/-- They carry the id of their signal. -/
theorem signalId_of_episode {prior : List (String × SignalPriority)} {s : Signal} {n : Note}
    (hn : n ∈ episodeNote prior s ∨ ∃ i, n = .clustered s i) : n.record.signalId = some s.id := by
  rcases hn with hn | ⟨i, rfl⟩
  · rcases mem_episodeNote hn with ⟨rfl, -⟩ | ⟨_, rfl, -⟩ <;> rfl
  · rfl

/-! ## The notes of one signal -/

/-- What `_observe_episodes` reports of one of the produced signals. -/
theorem filter_episodeNotes {prior : List (String × SignalPriority)} {s : Signal} :
    ∀ {signals : List Signal} {tracked : List String}, (signals.map (·.id)).Nodup → s ∈ signals →
      ∃ tracked', (episodeNotes prior tracked signals).filter (fun n => n.record.isAbout s.id) =
        episodeNote prior s ++ clusterNotes tracked' s := by
  have hall : ∀ {s' : Signal} (tracked : List String), ∀ n ∈ episodeNote prior s' ++ clusterNotes tracked s',
      n.record.signalId = some s'.id := fun tracked n hn => by
    rcases List.mem_append.1 hn with hn | hn
    · exact signalId_of_episode (.inl hn)
    · exact @signalId_of_episode prior _ _ (.inr (mem_clusterNotes hn))
  intro signals
  induction signals with
  | nil => intro tracked _ hs; exact absurd hs List.not_mem_nil
  | cons s' signals ih =>
    intro tracked hnd hs
    rw [List.map_cons, List.nodup_cons] at hnd
    unfold episodeNotes
    rw [List.filter_append]
    rcases List.mem_cons.1 hs with rfl | hs
    · refine ⟨tracked, ?_⟩
      rw [List.filter_eq_self.2 fun n hn => isAbout_iff.2 (hall tracked n hn), List.filter_eq_nil_iff.2,
        List.append_nil]
      intro n hn habout
      obtain ⟨s', hs', hn⟩ := mem_episodeNotes hn
      have hid := (signalId_of_episode hn).symm.trans (isAbout_iff.1 habout)
      exact hnd.1 (List.mem_map.2 ⟨s', hs', Option.some.inj hid⟩)
    · obtain ⟨tracked', htracked'⟩ := @ih (newlyClustered tracked s'.eventIds).2 hnd.2 hs
      refine ⟨tracked', ?_⟩
      rw [htracked', List.filter_eq_nil_iff.2, List.nil_append]
      intro n hn habout
      have hid := (hall tracked n hn).symm.trans (isAbout_iff.1 habout)
      exact hnd.1 (List.mem_map.2 ⟨s, hs, (Option.some.inj hid).symm⟩)

/-- What the alert loop reports of one of the produced signals that is new to the gate. -/
theorem filter_alertNotes {monotonic : String → ℚ} {s : Signal} :
    ∀ {signals : List Signal} {g : CooldownGate}, (signals.map (·.id)).Nodup → s ∈ signals →
      g.last.get? s.id = none →
      (alertNotes monotonic g signals).filter (fun n => n.record.isAbout s.id) = [.candidate s] := by
  intro signals
  induction signals with
  | nil => intro g _ hs; exact absurd hs List.not_mem_nil
  | cons s' signals ih =>
    intro g hnd hs hg
    rw [List.map_cons, List.nodup_cons] at hnd
    unfold alertNotes
    dsimp only
    rcases List.mem_cons.1 hs with rfl | hs
    · -- The gate knows nothing of the signal, so it lets it pass.
      have hallow : (g.allow (monotonic s.id) s.id s.priority).1 = true := by
        unfold CooldownGate.allow CooldownGate.passes
        rw [hg]
        rfl
      have habout : (Note.candidate s).record.isAbout s.id = true := isAbout_iff.2 rfl
      rw [hallow, if_pos rfl, List.filter_cons, if_pos habout, List.filter_eq_nil_iff.2]
      intro n hn habout
      obtain ⟨s', hs', hn⟩ := mem_alertNotes hn
      have hid : n.record.signalId = some s'.id := by rcases hn with rfl | rfl <;> rfl
      exact hnd.1 (List.mem_map.2 ⟨s', hs', Option.some.inj (hid.symm.trans (isAbout_iff.1 habout))⟩)
    · have hne : s.id ≠ s'.id := fun heq => hnd.1 (List.mem_map.2 ⟨s, hs, heq⟩)
      rw [List.filter_cons_of_neg, ih hnd.2 hs]
      · -- Another signal does not change what the gate knows of this one.
        unfold CooldownGate.allow
        split
        · rw [Dict.get?_set, if_neg hne]
          exact hg
        · exact hg
      · intro habout
        have hid := isAbout_iff.1 habout
        split at hid
        · exact hne (Option.some.inj hid).symm
        · exact hne (Option.some.inj hid).symm

/-- An event is reported as clustered once, when it first has company. -/
theorem countP_episodeNotes {prior : List (String × SignalPriority)} {i : String} :
    ∀ {signals : List Signal} {tracked : List String},
      (episodeNotes prior tracked signals).countP (fun n => n.record.clusters i) =
        if Clusters signals i ∧ i ∉ tracked then 1 else 0 := by
  intro signals
  induction signals with
  | nil =>
    intro tracked
    rw [if_neg fun h => ?_]
    · rfl
    · obtain ⟨⟨s, hs, -⟩, -⟩ := h
      exact absurd hs List.not_mem_nil
  | cons s signals ih =>
    intro tracked
    have hnote : (episodeNote prior s).countP (fun n => n.record.clusters i) = 0 := by
      rw [List.countP_eq_zero]
      intro n hn
      rcases mem_episodeNote hn with ⟨rfl, -⟩ | ⟨_, rfl, -⟩ <;> exact Bool.false_ne_true
    have hhead : Clusters (s :: signals) i ↔
        (i ∈ s.eventIds ∧ ∃ j ∈ s.eventIds, j ≠ i) ∨ Clusters signals i := by simp [Clusters]
    unfold episodeNotes
    rw [List.countP_append, List.countP_append, hnote, countP_clusterNotes, ih, newlyClustered_tracked]
    simp only [List.mem_append, mem_newlyClustered, hhead]
    by_cases htracked : i ∈ tracked
    · simp [htracked]
    · by_cases hcompany : i ∈ s.eventIds ∧ ∃ j ∈ s.eventIds, j ≠ i
      · simp only [htracked, hcompany]
        simp
      · simp only [htracked, hcompany]
        simp

end MarketSentinel
