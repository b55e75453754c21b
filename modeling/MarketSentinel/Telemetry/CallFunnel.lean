import MarketSentinel.Telemetry.CallNotes

/-!
# The telemetry funnel of one call

What the records of a `process` call count, when the runtime dropped none of them.

* `CallFunnel`: the records of one call, against the signals that it and the earlier calls produced.
* `RunFunnel`: the records of a run; `RunFunnel.append` adds a call.
* `callNotes_funnel`: the notes of a call keep to it.
-/

namespace MarketSentinel

open Lib Machine SignalComposer SignalPipeline

open TelemetryEvent

/-- **The records of one call.** It comes after calls that produced the signals in `earlier`, accepted a
number of events and produced some signals itself. -/
structure CallFunnel (earlier : List Signal) (accepted : ℕ) (produced : List Signal)
    (records : List TelemetryEvent) : Prop where
  /-- A generated event is deduped or accepted. -/
  detected : records.countP (isNamed .eventGenerated) = records.countP (isNamed .eventDeduped) + accepted
  /-- Each produced signal is alerted or suppressed, once, in order. -/
  alerts : (records.filter isAlert).map (·.signalId) = produced.map fun s => some s.id
  about : ∀ e ∈ records, ∀ id, e.signalId = some id → ∃ s ∈ produced, s.id = id
  /-- The first record of a new id is the only one that reports its creation, and an alert candidate
  follows. -/
  created : ∀ s ∈ produced, (∀ s' ∈ earlier, s'.id ≠ s.id) →
    ∃ first rest, records.filter (isAbout s.id) = first :: rest ∧ first.name = .signalEpisodeCreated ∧
      (∀ e ∈ rest, e.name ≠ .signalEpisodeCreated) ∧ ∃ e ∈ rest, e.name = .alertCandidate
  /-- An id that was produced before is not created again. -/
  continued : ∀ e ∈ records, e.name = .signalEpisodeCreated →
    ∃ s ∈ produced, e.signalId = some s.id ∧ ∀ s' ∈ earlier, s'.id ≠ s.id
  escalated : ∀ e ∈ records, e.name = .signalEscalated → ∃ s ∈ produced, e.signalId = some s.id ∧
    ∃ last, LastOf earlier s.id last ∧ priorityRank last.priority < priorityRank s.priority
  /-- An event is clustered in the first call in which it has company. -/
  clustered : ∀ i, records.countP (clusters i) = if Clusters produced i ∧ ¬ Clusters earlier i then 1 else 0

/-- **The records of a run**, which accepted a number of events and produced some signals. -/
structure RunFunnel (accepted : ℕ) (produced : List Signal) (records : List TelemetryEvent) : Prop where
  detected : records.countP (isNamed .eventGenerated) = records.countP (isNamed .eventDeduped) + accepted
  alerts : (records.filter isAlert).map (·.signalId) = produced.map fun s => some s.id
  about : ∀ e ∈ records, ∀ id, e.signalId = some id → ∃ s ∈ produced, s.id = id
  created : ∀ s ∈ produced, ∃ first rest, records.filter (isAbout s.id) = first :: rest ∧
    first.name = .signalEpisodeCreated ∧ ∀ e ∈ rest, e.name ≠ .signalEpisodeCreated
  clustered : ∀ i, records.countP (clusters i) = if Clusters produced i then 1 else 0

theorem RunFunnel.nil : RunFunnel 0 [] [] where
  detected := rfl
  alerts := rfl
  about := fun _ he => absurd he List.not_mem_nil
  created := fun _ hs => absurd hs List.not_mem_nil
  clustered := fun i => by
    rw [if_neg fun h => ?_]
    · rfl
    · obtain ⟨s, hs, -⟩ := h
      exact absurd hs List.not_mem_nil

theorem clusters_append {signals signals' : List Signal} {i : String} :
    Clusters (signals ++ signals') i ↔ Clusters signals i ∨ Clusters signals' i := by
  simp only [Clusters, List.mem_append, or_and_right, exists_or]

/-- **One call more.** -/
theorem RunFunnel.append {accepted accepted' : ℕ} {produced produced' : List Signal}
    {records records' : List TelemetryEvent} (h : RunFunnel accepted produced records)
    (hcall : CallFunnel produced accepted' produced' records') :
    RunFunnel (accepted + accepted') (produced ++ produced') (records ++ records') where
  detected := by
    -- The counts add up.
    have h1 := h.detected
    have h2 := hcall.detected
    rw [List.countP_append, List.countP_append]
    omega
  alerts := by rw [List.filter_append, List.map_append, h.alerts, hcall.alerts, List.map_append]
  about := by
    intro e he id hid
    rcases List.mem_append.1 he with he | he
    · obtain ⟨s, hs, hsid⟩ := h.about e he id hid
      exact ⟨s, List.mem_append_left _ hs, hsid⟩
    · obtain ⟨s, hs, hsid⟩ := hcall.about e he id hid
      exact ⟨s, List.mem_append_right _ hs, hsid⟩
  created := by
    intro s hs
    rw [List.filter_append]
    by_cases hnew : ∀ s' ∈ produced, s'.id ≠ s.id
    · -- Nothing was recorded of a new id.
      have hnone : records.filter (isAbout s.id) = [] := by
        rw [List.filter_eq_nil_iff]
        intro e he habout
        obtain ⟨s', hs', hid⟩ := h.about e he s.id (isAbout_iff.1 habout)
        exact hnew s' hs' hid
      have hs' : s ∈ produced' := (List.mem_append.1 hs).resolve_left fun hs => hnew s hs rfl
      obtain ⟨first, rest, hrecords, hfirst, hrest, -⟩ := hcall.created s hs' hnew
      exact ⟨first, rest, by rw [hnone, hrecords, List.nil_append], hfirst, hrest⟩
    · -- A known id is not created again.
      push Not at hnew
      obtain ⟨s', hs', hid⟩ := hnew
      obtain ⟨first, rest, hrecords, hfirst, hrest⟩ := h.created s' hs'
      rw [hid] at hrecords
      refine ⟨first, rest ++ records'.filter (isAbout s.id), by rw [hrecords, List.cons_append], hfirst, ?_⟩
      intro e he hname
      rcases List.mem_append.1 he with he | he
      · exact hrest e he hname
      · obtain ⟨he, habout⟩ := List.mem_filter.1 he
        obtain ⟨s'', -, hid'', hnew⟩ := hcall.continued e he hname
        have hsame : some s.id = some s''.id := (isAbout_iff.1 habout).symm.trans hid''
        exact hnew s' hs' (hid.trans (Option.some.inj hsame))
  clustered := by
    intro i
    rw [List.countP_append, h.clustered, hcall.clustered]
    by_cases h1 : Clusters produced i <;> by_cases h2 : Clusters produced' i <;> simp [clusters_append, h1, h2]

/-! ## One call -/

/-- What the active signals before a call tell of the signals produced earlier. -/
structure Known (prior : List (String × SignalPriority)) (earlier : List Signal) (s : Signal) : Prop where
  new : prior.lookup s.id = none → ∀ s' ∈ earlier, s'.id ≠ s.id
  last : ∀ priority, prior.lookup s.id = some priority →
    ∃ s', LastOf earlier s.id s' ∧ s'.priority = priority

theorem LastOf.mem {signals : List Signal} {id : String} {s : Signal} (h : LastOf signals id s) :
    s ∈ signals := by
  obtain ⟨-, pre, post, rfl, -⟩ := h
  exact List.mem_append_right _ List.mem_cons_self

theorem Known.lookup {prior : List (String × SignalPriority)} {earlier : List Signal} {s : Signal}
    (h : Known prior earlier s) (hnew : ∀ s' ∈ earlier, s'.id ≠ s.id) : prior.lookup s.id = none := by
  cases hprior : prior.lookup s.id with
  | none => rfl
  | some priority =>
    obtain ⟨s', hs', -⟩ := h.last priority hprior
    exact absurd hs'.1 (hnew s' hs'.mem)

/-- Each produced signal is alerted or suppressed. -/
theorem alerts_alertNotes {monotonic : String → ℚ} : ∀ {signals : List Signal} {g : CooldownGate},
    ((alertNotes monotonic g signals).filter fun n => n.record.isAlert).map (·.record.signalId) =
      signals.map fun s => some s.id := by
  intro signals
  induction signals with
  | nil => intro g; rfl
  | cons s signals ih =>
    intro g
    unfold alertNotes
    dsimp only
    split
    · have halert : (Note.candidate s).record.isAlert = true := rfl
      rw [List.filter_cons, if_pos halert, List.map_cons, ih]
      rfl
    · have halert : (Note.suppressed s .cooldown).record.isAlert = true := rfl
      rw [List.filter_cons, if_pos halert, List.map_cons, ih]
      rfl

section Groups

variable {d : EventDeduper} {events : List MarketEvent} {prior : List (String × SignalPriority)}
  {tracked : List String} {monotonic : String → ℚ} {g : CooldownGate} {signals : List Signal} {f : Note → Bool}

theorem detectNotes_none (hf : ∀ event, f (.generated event) = false ∧ f (.deduped event) = false) :
    ∀ n ∈ detectNotes d events, ¬ f n = true := by
  intro n hn
  obtain ⟨event, rfl | rfl⟩ := mem_detectNotes hn
  · exact Bool.eq_false_iff.1 (hf event).1
  · exact Bool.eq_false_iff.1 (hf event).2

theorem episodeNotes_none
    (hf : ∀ s, f (.created s) = false ∧ f (.escalated s) = false ∧ ∀ i, f (.clustered s i) = false) :
    ∀ n ∈ episodeNotes prior tracked signals, ¬ f n = true := by
  intro n hn
  obtain ⟨s, -, hn | ⟨i, rfl⟩⟩ := mem_episodeNotes hn
  · rcases mem_episodeNote hn with ⟨rfl, -⟩ | ⟨_, rfl, -⟩
    · exact Bool.eq_false_iff.1 (hf s).1
    · exact Bool.eq_false_iff.1 (hf s).2.1
  · exact Bool.eq_false_iff.1 ((hf s).2.2 i)

theorem alertNotes_none (hf : ∀ s, f (.candidate s) = false ∧ f (.suppressed s .cooldown) = false) :
    ∀ n ∈ alertNotes monotonic g signals, ¬ f n = true := by
  intro n hn
  obtain ⟨s, -, rfl | rfl⟩ := mem_alertNotes hn
  · exact Bool.eq_false_iff.1 (hf s).1
  · exact Bool.eq_false_iff.1 (hf s).2

/-- A note of a call is about an event or about one of the produced signals. -/
theorem mem_notes {n : Note}
    (hn : n ∈ detectNotes d events ++ (episodeNotes prior tracked signals ++ alertNotes monotonic g signals)) :
    (∃ event, n = .generated event ∨ n = .deduped event) ∨
      ∃ s ∈ signals, (n ∈ episodeNote prior s ∨ ∃ i, n = .clustered s i) ∨
        n = .candidate s ∨ n = .suppressed s .cooldown := by
  rcases List.mem_append.1 hn with hn | hn
  · exact .inl (mem_detectNotes hn)
  · rcases List.mem_append.1 hn with hn | hn
    · obtain ⟨s, hs, hn⟩ := mem_episodeNotes hn
      exact .inr ⟨s, hs, .inl hn⟩
    · obtain ⟨s, hs, hn⟩ := mem_alertNotes hn
      exact .inr ⟨s, hs, .inr hn⟩

/-- What a call reports of one of the produced signals that is new to the gate. -/
theorem filter_notes {s : Signal} (hnd : (signals.map (·.id)).Nodup) (hs : s ∈ signals)
    (hg : g.last.get? s.id = none) :
    ∃ tracked', (detectNotes d events ++ (episodeNotes prior tracked signals ++ alertNotes monotonic g signals)).filter
        (fun n => n.record.isAbout s.id) = episodeNote prior s ++ (clusterNotes tracked' s ++ [.candidate s]) := by
  obtain ⟨tracked', hepisode⟩ := @filter_episodeNotes prior s signals tracked hnd hs
  have hnone : (detectNotes d events).filter (fun n => n.record.isAbout s.id) = [] :=
    List.filter_eq_nil_iff.2 (detectNotes_none fun _ => ⟨rfl, rfl⟩)
  refine ⟨tracked', ?_⟩
  rw [List.filter_append, List.filter_append, hnone, hepisode, filter_alertNotes hnd hs hg, List.nil_append,
    List.append_assoc]

end Groups

variable {p p' : SignalPipeline} {env : PipelineEnv} {previous : Option MarketFeatures}
  {current : MarketFeatures} {earlier : List Signal}

/-- **The records of the notes of a call.** -/
theorem callNotes_funnel (hr : Reports p env previous current p')
    (hnd : (((p.composeStage env previous current).2.1.map (·.1)).map (·.id)).Nodup)
    (hknown : ∀ s ∈ (p.composeStage env previous current).2.1.map (·.1),
      Known (p.priorPriority current.symbol) earlier s)
    (htracked : ∀ i, i ∈ p.clusteredIds ↔ Clusters earlier i)
    (hgate : ∀ id, (p.cooldown.last.get? id).isSome → ∃ s ∈ earlier, s.id = id) :
    CallFunnel earlier (p.composeStage env previous current).1.length
      ((p.composeStage env previous current).2.1.map (·.1))
      ((p.callNotes env previous current).map (·.record)) := by
  -- Each field of the funnel looks at one of the three groups of notes; the others have other names.
  have hcount := hr.accepted
  unfold callNotes
  dsimp only
  generalize (p.composeStage env previous current).2.1.map (·.1) = produced at hnd hknown ⊢
  generalize evaluate env.eventId env.detectedAt previous current = events at hcount ⊢
  constructor
  · simp only [List.countP_map, List.countP_append, Function.comp_def]
    rw [countP_generated, List.countP_eq_zero.2 (episodeNotes_none fun _ => ⟨rfl, rfl, fun _ => rfl⟩),
      List.countP_eq_zero.2 (alertNotes_none fun _ => ⟨rfl, rfl⟩),
      List.countP_eq_zero.2 (episodeNotes_none fun _ => ⟨rfl, rfl, fun _ => rfl⟩),
      List.countP_eq_zero.2 (alertNotes_none fun _ => ⟨rfl, rfl⟩)]
    simp only [isNamed_deduped]
    change _ + (0 + 0) = (detectNotes p.deduper events).countP Note.isDeduped + (0 + 0) + _
    omega
  · rw [List.filter_map, List.map_map, List.filter_append, List.filter_append]
    simp only [Function.comp_def]
    rw [List.filter_eq_nil_iff.2 (detectNotes_none fun _ => ⟨rfl, rfl⟩),
      List.filter_eq_nil_iff.2 (episodeNotes_none fun _ => ⟨rfl, rfl, fun _ => rfl⟩), List.nil_append, List.nil_append]
    exact alerts_alertNotes
  · intro e he id hid
    obtain ⟨n, hn, rfl⟩ := List.mem_map.1 he
    rcases mem_notes hn with ⟨event, rfl | rfl⟩ | ⟨s, hs, hn | rfl | rfl⟩
    · cases hid
    · cases hid
    · exact ⟨s, hs, Option.some.inj ((signalId_of_episode hn).symm.trans hid)⟩
    · exact ⟨s, hs, Option.some.inj hid⟩
    · exact ⟨s, hs, Option.some.inj hid⟩
  · intro s hs hnew
    have hlookup := (hknown s hs).lookup hnew
    have hlast : p.cooldown.last.get? s.id = none := by
      cases hget : p.cooldown.last.get? s.id with
      | none => rfl
      | some last =>
        obtain ⟨s', hs', hid⟩ := hgate s.id (by rw [hget]; rfl)
        exact absurd hid (hnew s' hs')
    obtain ⟨tracked, hfilter⟩ := @filter_notes p.deduper events (p.priorPriority current.symbol) p.clusteredIds
      env.monotonic p.cooldown produced s hnd hs hlast
    have hnote : episodeNote (p.priorPriority current.symbol) s = [.created s] := by
      unfold episodeNote
      rw [hlookup]
    rw [hnote, List.singleton_append] at hfilter
    refine ⟨(Note.created s).record, (clusterNotes tracked s ++ [Note.candidate s]).map (·.record), ?_, rfl, ?_, ?_⟩
    · rw [List.filter_map]
      exact congrArg (List.map (·.record)) hfilter
    · intro e he hname
      obtain ⟨n, hn, rfl⟩ := List.mem_map.1 he
      rcases List.mem_append.1 hn with hn | hn
      · obtain ⟨i, rfl⟩ := mem_clusterNotes hn
        cases hname
      · rw [List.mem_singleton.1 hn] at hname
        cases hname
    · exact ⟨_, List.mem_map.2 ⟨Note.candidate s, List.mem_append_right _ (List.mem_singleton_self _), rfl⟩, rfl⟩
  · intro e he hname
    obtain ⟨n, hn, rfl⟩ := List.mem_map.1 he
    rcases mem_notes hn with ⟨event, rfl | rfl⟩ | ⟨s, hs, (hn | ⟨i, rfl⟩) | rfl | rfl⟩
    · cases hname
    · cases hname
    · rcases mem_episodeNote hn with ⟨rfl, hnone⟩ | ⟨_, rfl, -⟩
      · exact ⟨s, hs, rfl, (hknown s hs).new hnone⟩
      · cases hname
    · cases hname
    · cases hname
    · cases hname
  · intro e he hname
    obtain ⟨n, hn, rfl⟩ := List.mem_map.1 he
    rcases mem_notes hn with ⟨event, rfl | rfl⟩ | ⟨s, hs, (hn | ⟨i, rfl⟩) | rfl | rfl⟩
    · cases hname
    · cases hname
    · rcases mem_episodeNote hn with ⟨rfl, hnone⟩ | ⟨priority, rfl, hsome, hlt⟩
      · cases hname
      · obtain ⟨last, hlast, rfl⟩ := (hknown s hs).last priority hsome
        exact ⟨s, hs, rfl, last, hlast, hlt⟩
    · cases hname
    · cases hname
    · cases hname
  · intro i
    simp only [List.countP_map, List.countP_append, Function.comp_def]
    rw [List.countP_eq_zero.2 (detectNotes_none fun _ => ⟨rfl, rfl⟩), countP_episodeNotes,
      List.countP_eq_zero.2 (alertNotes_none fun _ => ⟨rfl, rfl⟩)]
    simp only [htracked, Nat.zero_add, Nat.add_zero]

end MarketSentinel
