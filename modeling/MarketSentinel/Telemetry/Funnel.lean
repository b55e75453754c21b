import MarketSentinel.Signals.Reported
import MarketSentinel.Telemetry.CallFunnel

/-!
# The telemetry funnel

What the records of a run of `process` calls count, when the runtime dropped none of them.

* `run_known`: what a run has produced, against what the pipeline remembers of it.
* `call_funnel`: the records of a call in a run.
* `telemetry_funnel`: every call and the run as a whole.
-/

namespace MarketSentinel

open Lib Machine SignalComposer SignalPipeline

open TelemetryEvent

/-! ## Runs -/

/-- The records of a pipeline's runtime. -/
def SignalPipeline.telemetryEvents (p : SignalPipeline) : List TelemetryEvent := (p.telemetry.map (·.events)).getD []

/-- The runtime dropped no record so far. -/
def KeptAll (p : SignalPipeline) : Prop := ∀ t ∈ p.telemetry, t.events.length = t.emitted

/-- A pipeline as it is constructed, with a runtime that has recorded nothing. -/
structure Started (p : SignalPipeline) : Prop where
  composer : ∃ (lookbackS : ℚ) (hl : 0 ≤ lookbackS), p.composer = SignalComposer.new lookbackS hl
  gate : p.cooldown.last = Dict.empty
  telemetry : ∃ runId stamps, p.telemetry = some { runId := runId, stamps := stamps }

/-- What the runtime and the gate know after a run that produced some signals. -/
structure Recorded (produced : List Signal) (p : SignalPipeline) : Prop where
  running : p.telemetry.isSome
  bounded : ∀ t ∈ p.telemetry, t.events.length ≤ t.emitted
  tracked : ∀ i, i ∈ p.clusteredIds ↔ Clusters produced i
  gate : ∀ id, (p.cooldown.last.get? id).isSome → ∃ s ∈ produced, s.id = id

theorem Started.observed {p : SignalPipeline} (h : Started p) : Recorded [] p := by
  obtain ⟨runId, stamps, ht⟩ := h.telemetry
  refine ⟨by rw [ht]; rfl, fun t hmem => ?_, fun i => ?_, fun id hid => ?_⟩
  · rw [ht] at hmem
    obtain rfl := Option.some.inj hmem
    exact le_rfl
  · unfold clusteredIds
    rw [ht]
    simp [Clusters]
  · rw [h.gate] at hid
    simp at hid

/-- **What a call adds**, when nothing was dropped by its end. -/
theorem SignalPipeline.Emits.kept {p p' : SignalPipeline} {notes : List Note} (h : SignalPipeline.Emits p notes p')
    (hp : p.telemetry.isSome) (hb : ∀ t ∈ p.telemetry, t.events.length ≤ t.emitted) (hk : KeptAll p') :
    KeptAll p ∧ ∃ records, p'.telemetryEvents = p.telemetryEvents ++ records ∧
      records.map (·.bare) = notes.map (·.record) := by
  obtain ⟨t, ht⟩ := Option.isSome_iff_exists.1 hp
  obtain ⟨t', ht', hemitted, kept, hevents, hle, hbare⟩ := h.runtime t ht
  have hlength := hk t' ht'
  have hbound := hb t ht
  rw [hevents, List.length_append, hemitted] at hlength
  refine ⟨fun t₁ ht₁ => ?_, kept, ?_, hbare (by omega)⟩
  · obtain rfl : t = t₁ := Option.some.inj (ht.symm.trans ht₁)
    omega
  · unfold telemetryEvents
    rw [Option.mem_def] at ht'
    rw [ht, ht']
    exact hevents

theorem SignalPipeline.Emits.bounded {p p' : SignalPipeline} {notes : List Note} (h : SignalPipeline.Emits p notes p')
    (hp : p.telemetry.isSome) (hb : ∀ t ∈ p.telemetry, t.events.length ≤ t.emitted) :
    ∀ t ∈ p'.telemetry, t.events.length ≤ t.emitted := by
  obtain ⟨t, ht⟩ := Option.isSome_iff_exists.1 hp
  obtain ⟨t', ht', hemitted, kept, hevents, hle, -⟩ := h.runtime t ht
  intro t₁ ht₁
  obtain rfl : t' = t₁ := Option.some.inj (Eq.trans (Eq.symm ht') ht₁)
  have hbound := hb t ht
  rw [hevents, List.length_append, hemitted]
  omega

/-- A record counts the same without its id, run and time. -/
theorem CallFunnel.of_bare {earlier produced : List Signal} {accepted : ℕ} {records : List TelemetryEvent}
    (h : CallFunnel earlier accepted produced (records.map (·.bare))) :
    CallFunnel earlier accepted produced records := by
  have hcount : ∀ f : TelemetryEvent → Bool, (∀ e : TelemetryEvent, f e.bare = f e) →
      (records.map (·.bare)).countP f = records.countP f := fun f hf => by
    rw [List.countP_map]
    exact congrArg (fun g => records.countP g) (funext hf)
  have hfilter : ∀ f : TelemetryEvent → Bool, (∀ e : TelemetryEvent, f e.bare = f e) →
      (records.map (·.bare)).filter f = (records.filter f).map (·.bare) := fun f hf => by
    rw [List.filter_map]
    exact congrArg (fun g => (records.filter g).map (·.bare)) (funext hf)
  have hmem : ∀ e ∈ records, e.bare ∈ records.map (·.bare) := fun e he => List.mem_map.2 ⟨e, he, rfl⟩
  refine ⟨?_, ?_, fun e he => h.about e.bare (hmem e he), fun s hs hnew => ?_,
    fun e he => h.continued e.bare (hmem e he), fun e he => h.escalated e.bare (hmem e he), fun i => ?_⟩
  · have hdetected := h.detected
    rwa [hcount _ fun _ => rfl, hcount _ fun _ => rfl] at hdetected
  · have halerts := h.alerts
    rwa [hfilter _ fun _ => rfl, List.map_map] at halerts
  · obtain ⟨first, rest, heq, hfirst, hrest, e, he, hcandidate⟩ := h.created s hs hnew
    rw [hfilter _ fun _ => rfl] at heq
    obtain ⟨first', rest', hrecords, rfl, rfl⟩ := List.map_eq_cons_iff.1 heq
    refine ⟨first', rest', hrecords, hfirst, fun e he => hrest e.bare (List.mem_map.2 ⟨e, he, rfl⟩), ?_⟩
    obtain ⟨e', he', rfl⟩ := List.mem_map.1 he
    exact ⟨e', he', hcandidate⟩
  · have hclustered := h.clustered i
    rwa [hcount _ fun _ => rfl] at hclustered

/-- **What is known before a call** of the signals that it produces. -/
theorem run_known {p₀ p : SignalPipeline} {pre : List SignalCall} {env : PipelineEnv}
    {previous : Option MarketFeatures} {current : MarketFeatures} {lookbackS : ℚ} {hl : 0 ≤ lookbackS}
    (h₀ : p₀.composer = SignalComposer.new lookbackS hl)
    (hnd : ((pre ++ [SignalCall.process env previous current]).flatMap (·.drawIds)).Nodup)
    (hrun : run SignalPipeline.step p₀ pre = some p) :
    ∀ s ∈ (p.composeStage env previous current).2.1.map (·.1),
      Known (p.priorPriority current.symbol) (p₀.producedIn pre) s := by
  have hpre : (pre.flatMap (·.drawIds)).Nodup := by
    rw [List.flatMap_append] at hnd
    exact (List.nodup_append.1 hnd).1
  obtain ⟨log, hfiled, hproduced, -, hlogged⟩ := run_logged h₀ hpre hrun
  obtain ⟨hsame, hgone⟩ := episode_identity h₀ hnd hrun
  have hcall : p.producedIn [.process env previous current] =
      (p.composeStage env previous current).2.1.map (·.1) := List.append_nil _
  rw [producedIn_append, run_eq_foldl.1 hrun, hcall] at hsame
  rw [hcall] at hgone
  -- An active signal is the last one that was produced under its id.
  have hactive : ∀ a ∈ p.composer.activeSignals current.symbol, LastOf (p₀.producedIn pre) a.id a := by
    intro a ha
    obtain ⟨k, -, ha⟩ := mem_activeSignals.1 ha
    obtain ⟨before, after, hlog, hafter⟩ := hlogged.last ha
    refine ⟨rfl, before.map (·.2), after.map (·.2), ?_, fun s' hs' => ?_⟩
    · change log = before ++ (k, a) :: after at hlog
      rw [hproduced, hlog, List.map_append, List.map_cons]
    · obtain ⟨q, hq, rfl⟩ := List.mem_map.1 hs'
      exact hafter q hq
  intro s hs
  have hsymbol : s.symbol = current.symbol := by
    obtain ⟨q, hq, rfl⟩ := List.mem_map.1 hs
    exact (p.composeStage_stands env previous current q hq).1
  constructor
  · -- An earlier signal with the id would still be active, under the same symbol.
    intro hnone s' hs' hid
    have hstill : ∃ k a, p.composer.active.get? k = some a ∧ a.id = s'.id := by
      by_contra hgone'
      push Not at hgone'
      exact hgone s' hs' hgone' s hs hid.symm
    obtain ⟨k, a, ha, haid⟩ := hstill
    obtain ⟨before, after, hlog, -⟩ := hlogged.last ha
    have hmem : (k, a) ∈ log := by
      change log = before ++ (k, a) :: after at hlog
      rw [hlog]
      exact List.mem_append_right _ List.mem_cons_self
    have hpair := (List.pairwise_append.1 hsame).2.2 a (hproduced ▸ List.mem_map.2 ⟨_, hmem, rfl⟩) s hs
      (haid.trans hid)
    have hk : k.symbol = current.symbol :=
      (hfiled _ hmem).symbol.symm.trans (hpair.1.symm.trans hsymbol)
    have hin : a ∈ p.composer.activeSignals current.symbol := mem_activeSignals.2 ⟨k, hk, ha⟩
    rw [List.lookup_eq_none_iff] at hnone
    have hne := hnone (a.id, a.priority) (List.mem_reverse.2 (List.mem_map.2 ⟨a, hin, rfl⟩))
    simp [haid, hid] at hne
  · intro priority hsome
    have hmem : (s.id, priority) ∈ p.priorPriority current.symbol := by
      obtain ⟨before, after, heq, -⟩ := List.lookup_eq_some_iff.1 hsome
      rw [heq]
      exact List.mem_append_right _ List.mem_cons_self
    obtain ⟨a, ha, heq⟩ := List.mem_map.1 (List.mem_reverse.1 hmem)
    obtain ⟨hid, hpriority⟩ := Prod.mk.inj heq
    exact ⟨a, hid ▸ hactive a ha, hpriority⟩

/-- A call that reports keeps what is known. -/
theorem Recorded.step {p p' : SignalPipeline} {env : PipelineEnv} {previous : Option MarketFeatures}
    {current : MarketFeatures} {earlier : List Signal} (h : Recorded earlier p)
    (hr : Reports p env previous current p') :
    Recorded (earlier ++ (p.composeStage env previous current).2.1.map (·.1)) p' where
  running := hr.emits.isSome h.running
  bounded := hr.emits.bounded h.running h.bounded
  tracked := fun i => by rw [hr.tracked, mem_trackedAfter, h.tracked, clusters_append]
  gate := by
    intro id hid
    rw [hr.gate] at hid
    rcases gateAfter_last hid with hid | ⟨s, hs, hid⟩
    · obtain ⟨s, hs, hid⟩ := h.gate id hid
      exact ⟨s, List.mem_append_left _ hs, hid⟩
    · exact ⟨s, List.mem_append_right _ hs, hid⟩

/-- Every call of the run is a `process` call. -/
def OnlyProcess (calls : List SignalCall) : Prop :=
  ∀ call ∈ calls, ∃ env previous current, call = .process env previous current

section Run

variable {p₀ : SignalPipeline}

/-- A `process` call of a fresh run reports. -/
theorem run_reports {pre post : List SignalCall} {env : PipelineEnv} {previous : Option MarketFeatures}
    {current : MarketFeatures} {p : SignalPipeline} (h₀ : Started p₀)
    (hf : FreshRun (pre ++ .process env previous current :: post))
    (hrun : run SignalPipeline.step p₀ pre = some p) (hp : p.telemetry.isSome) :
    Reports p env previous current (p.process env previous current).2 ∧
      (((p.composeStage env previous current).2.1.map (·.1)).map (·.id)).Nodup := by
  obtain ⟨lookbackS, hl, hcomposer⟩ := h₀.composer
  have hinv := run_inv_composer hcomposer hf.of_append hrun
  obtain ⟨-, hnd, -⟩ := composeStage_inv previous hinv hf.env
  obtain ⟨-, res, hres, -⟩ := process_spec previous hinv hf.env
  refine ⟨process_reports hp hnd (by rw [hres]; rfl), ?_⟩
  rw [List.map_map]
  exact hnd

/-- **What the runtime and the gate know after a run.** -/
theorem run_observed {calls : List SignalCall} {p : SignalPipeline} (h₀ : Started p₀)
    (hprocess : OnlyProcess calls) (hf : FreshRun calls)
    (hrun : run SignalPipeline.step p₀ calls = some p) : Recorded (p₀.producedIn calls) p := by
  induction calls using List.reverseRecOn generalizing p with
  | nil =>
    obtain rfl := Option.some.inj hrun
    exact h₀.observed
  | append_singleton calls call ih =>
    obtain ⟨p₁, hrun₁, hstep⟩ := run_append.1 hrun
    obtain ⟨env, previous, current, rfl⟩ := hprocess call (List.mem_append_right _ (List.mem_singleton_self _))
    have hknown := ih (fun c hc => hprocess c (List.mem_append_left _ hc)) hf.of_append hrun₁
    obtain ⟨hreports, -⟩ := run_reports h₀ hf hrun₁ hknown.running
    obtain rfl : (p₁.process env previous current).2 = p := Option.some.inj hstep
    have hproduced : p₀.producedIn (calls ++ [.process env previous current]) =
        p₀.producedIn calls ++ (p₁.composeStage env previous current).2.1.map (·.1) := by
      rw [producedIn_append, run_eq_foldl.1 hrun₁]
      exact congrArg _ (List.append_nil _)
    rw [hproduced]
    exact hknown.step hreports

/-- **One call of a run** by whose end no record was dropped. -/
theorem call_funnel {pre post : List SignalCall} {env : PipelineEnv} {previous : Option MarketFeatures}
    {current : MarketFeatures} {p : SignalPipeline} (h₀ : Started p₀) (hprocess : OnlyProcess pre)
    (hf : FreshRun (pre ++ .process env previous current :: post))
    (hrun : run SignalPipeline.step p₀ pre = some p)
    (hkept : KeptAll (p.process env previous current).2) :
    KeptAll p ∧ ∃ records, (p.process env previous current).2.telemetryEvents = p.telemetryEvents ++ records ∧
      CallFunnel (p₀.producedIn pre) (p.composeStage env previous current).1.length
        ((p.composeStage env previous current).2.1.map (·.1)) records := by
  have hobserved := run_observed h₀ hprocess hf.of_append hrun
  obtain ⟨hreports, hnd⟩ := run_reports h₀ hf hrun hobserved.running
  obtain ⟨hbefore, records, hrecords, hbare⟩ :=
    hreports.emits.kept hobserved.running hobserved.bounded hkept
  obtain ⟨lookbackS, hl, hcomposer⟩ := h₀.composer
  have hdraws : ((pre ++ [SignalCall.process env previous current]).flatMap (·.drawIds)).Nodup := by
    have hall := hf.draws
    rw [← List.singleton_append, ← List.append_assoc, List.flatMap_append] at hall
    exact (List.nodup_append.1 hall).1
  have hfunnel := callNotes_funnel hreports hnd (run_known hcomposer hdraws hrun) hobserved.tracked
    hobserved.gate
  rw [← hbare] at hfunnel
  exact ⟨hbefore, records, hrecords, hfunnel.of_bare⟩

/-- The number of events that a call accepts. -/
def SignalPipeline.acceptedBy (p : SignalPipeline) : SignalCall → ℕ
  | .process env previous current => (p.composeStage env previous current).1.length
  | _ => 0

/-- The number of events that a run accepts. -/
def SignalPipeline.acceptedIn (p : SignalPipeline) : List SignalCall → ℕ
  | [] => 0
  | call :: calls => p.acceptedBy call + (p.after call).acceptedIn calls

theorem acceptedIn_append (p : SignalPipeline) : ∀ pre post : List SignalCall,
    p.acceptedIn (pre ++ post) = p.acceptedIn pre + (pre.foldl after p).acceptedIn post := by
  intro pre
  induction pre generalizing p with
  | nil => intro post; simp [acceptedIn]
  | cons call pre ih =>
    intro post
    rw [List.cons_append, acceptedIn, acceptedIn, ih, List.foldl_cons, Nat.add_assoc]

end Run

/-- **The telemetry funnel.** Along every run of `process` calls from a new pipeline whose runtime accepts
every record, with fresh ids: the records of each call are as `CallFunnel` says, and the records of the
whole run as `RunFunnel` says. -/
theorem telemetry_funnel {p₀ p : SignalPipeline} {calls : List SignalCall} (h₀ : Started p₀)
    (hprocess : OnlyProcess calls) (hf : FreshRun calls)
    (hrun : run SignalPipeline.step p₀ calls = some p) (hkept : KeptAll p) :
    (∀ pre env previous current post, calls = pre ++ .process env previous current :: post →
      ∃ p₁, run SignalPipeline.step p₀ pre = some p₁ ∧
        ∃ records, (p₁.process env previous current).2.telemetryEvents = p₁.telemetryEvents ++ records ∧
          CallFunnel (p₀.producedIn pre) (p₁.acceptedBy (.process env previous current))
            (p₁.producedBy (.process env previous current)) records) ∧
    RunFunnel (p₀.acceptedIn calls) (p₀.producedIn calls) p.telemetryEvents := by
  induction calls using List.reverseRecOn generalizing p with
  | nil =>
    obtain rfl := Option.some.inj hrun
    obtain ⟨runId, stamps, ht⟩ := h₀.telemetry
    refine ⟨fun pre env previous current post heq => ?_, ?_⟩
    · cases pre <;> cases heq
    · have hempty : p₀.telemetryEvents = [] := by
        unfold telemetryEvents
        rw [ht]
        rfl
      rw [hempty]
      exact .nil
  | append_singleton calls call ih =>
    obtain ⟨p₁, hrun₁, hstep⟩ := run_append.1 hrun
    obtain ⟨env, previous, current, rfl⟩ := hprocess call (List.mem_append_right _ (List.mem_singleton_self _))
    have honly : OnlyProcess calls := fun c hc => hprocess c (List.mem_append_left _ hc)
    obtain rfl : (p₁.process env previous current).2 = p := Option.some.inj hstep
    obtain ⟨hbefore, records, hrecords, hfunnel⟩ := call_funnel h₀ honly hf hrun₁ hkept
    obtain ⟨hcalls, htotal⟩ := ih honly hf.of_append hrun₁ hbefore
    refine ⟨fun pre env' previous' current' post heq => ?_, ?_⟩
    · -- The call is the last one or one of those before it.
      rcases List.eq_nil_or_concat post with rfl | ⟨post, last, rfl⟩
      · obtain ⟨rfl, hcall⟩ := List.append_inj' heq rfl
        obtain ⟨rfl, rfl, rfl⟩ := SignalCall.process.inj (List.singleton_inj.1 hcall)
        exact ⟨p₁, hrun₁, records, hrecords, hfunnel⟩
      · rw [List.concat_eq_append, ← List.cons_append, ← List.append_assoc] at heq
        obtain ⟨rfl, -⟩ := List.append_inj' heq rfl
        exact hcalls pre env' previous' current' post rfl
    · have hproduced : p₀.producedIn (calls ++ [.process env previous current]) =
          p₀.producedIn calls ++ (p₁.composeStage env previous current).2.1.map (·.1) := by
        rw [producedIn_append, run_eq_foldl.1 hrun₁]
        exact congrArg _ (List.append_nil _)
      have haccepted : p₀.acceptedIn (calls ++ [.process env previous current]) =
          p₀.acceptedIn calls + (p₁.composeStage env previous current).1.length := by
        rw [acceptedIn_append, run_eq_foldl.1 hrun₁]
        rfl
      rw [hproduced, haccepted, hrecords]
      exact htotal.append hfunnel

/-- A pipeline whose runtime draws one id and time for every record. -/
def recordingPipeline : SignalPipeline :=
  { telemetry := some { runId := "r", stamps := fun _ => ("t", 0) } }

/-- An environment whose ids have a prefix. -/
def prefixEnv (pre : String) (wall : ℚ) : PipelineEnv where
  detectedAt := wall
  eventId t := pre ++ t.value
  draws := prefixDraws pre wall
  monotonic _ := wall

/-- An episode that is created, and escalated when a volume spike joins. -/
def escalatingRun : List SignalCall :=
  [.process (prefixEnv "a" 20) none { bareFeatures "A" 20 with change1m := some (7 / 1000) },
    .process (prefixEnv "b" 30) none
      { bareFeatures "A" 30 with change1m := some (7 / 1000), volumeRatio1m := some 6 }]

theorem telemetry_funnel_escalating : ∃ p, run SignalPipeline.step recordingPipeline escalatingRun = some p ∧
    p.telemetryEvents.length = 12 ∧
    RunFunnel 3 (recordingPipeline.producedIn escalatingRun) p.telemetryEvents := by
  have hreading : (run SignalPipeline.step recordingPipeline escalatingRun).map
      (fun p => p.telemetry.map fun t => (t.events.length, t.emitted)) = some (some (12, 12)) := by
    decide +kernel
  obtain ⟨p, hp, hcounts⟩ := Option.map_eq_some_iff.1 hreading
  obtain ⟨t, ht, hlengths⟩ := Option.map_eq_some_iff.1 hcounts
  obtain ⟨hevents, hemitted⟩ := Prod.mk.inj hlengths
  have hkept : KeptAll p := fun t' ht' => by
    obtain rfl : t = t' := Option.some.inj (ht.symm.trans ht')
    exact hevents.trans hemitted.symm
  have h₀ : Started recordingPipeline :=
    ⟨⟨clusterLookbackS, clusterLookbackS_nonneg, rfl⟩, rfl, "r", fun _ => ("t", 0), rfl⟩
  have haccepted : recordingPipeline.acceptedIn escalatingRun = 3 := by decide +kernel
  have hprocess : OnlyProcess escalatingRun := by
    intro call hcall
    rcases List.mem_pair.1 hcall with rfl | rfl <;> exact ⟨_, _, _, rfl⟩
  obtain ⟨-, hrunFunnel⟩ := telemetry_funnel h₀ hprocess (by decide) hp hkept
  rw [haccepted] at hrunFunnel
  refine ⟨p, hp, ?_, hrunFunnel⟩
  unfold telemetryEvents
  rw [ht]
  exact hevents

end MarketSentinel
