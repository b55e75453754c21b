import MarketSentinel.Extension.Quiet
import MarketSentinel.Extension.StepParts

/-!
# The wire between the host and a core

Requests go to a core in the order in which they were sent, and their answers come back in that order. A request
that a task awaits is on its way to the core whose client was asked, or its answer is on its way back (`Wired`).
-/

namespace MarketSentinel.Extension

open Lib Lib.Machine

/-- The request that is awaited at this point. -/
def Point.command : Point → Option HostCommandType
  | handshake _ _ step => some step.command
  | getState .. => some .getState
  | pause _ => some .pause
  | resume _ => some .resume
  | flush .. => some SignalMessageType.alertPresented.command
  | feedback _ => some SignalMessageType.userFeedback.command
  | _ => none

/-- The request that an output answers. -/
def CoreOutput.answers : CoreOutput → Option (ℕ × ℕ)
  | answer task time _ => some (task, time)
  | _ => none

/-- What is on its way back and to the core, by task and time. -/
def Core.wire (core : Core) : List (ℕ × ℕ) :=
  core.outbox.filterMap CoreOutput.answers ++ core.inbox.map fun request => (request.task, request.time)

/-- The core with one more request. -/
def Core.asked (core : Core) (i time : ℕ) (command : HostCommandType) : Core :=
  { core with inbox := core.inbox ++ [⟨i, time, command⟩] }

namespace Host

variable {s s' s₀ : Host} {i m : ℕ} {e : HostEvent}

/-- What a core still has to answer, or has answered, belongs to tasks that ask it. -/
structure Wired (s : Host) : Prop where
  sorted : ∀ m, (s.cores m).wire.Pairwise fun a b => a.2 < b.2
  timely : ∀ m, ∀ x ∈ (s.cores m).wire, x.2 < s.clock
  /-- Only the core that was asked has the request. -/
  matched : ∀ i point time m, s.tasks i = some ⟨point, .asked time⟩ → (i, time) ∈ (s.cores m).wire →
    point.manager = some m
  /-- No request that is awaited is lost. -/
  kept : ∀ i point time m, s.tasks i = some ⟨point, .asked time⟩ → point.manager = some m →
    (i, time) ∈ (s.cores m).wire
  commanded : ∀ i point time m, s.tasks i = some ⟨point, .asked time⟩ → ∀ request ∈ (s.cores m).inbox,
    request.task = i → request.time = time → point.command = some request.command

/-! ## Tasks that await an answer -/

/-- No task has come to await an answer. -/
def Hushed (s s' : Host) : Prop :=
  ∀ i point time, s'.tasks i = some ⟨point, .asked time⟩ → s.tasks i = some ⟨point, .asked time⟩

/-- A task that is parked without a request asks nobody. -/
theorem hushed_park {point : Point} {ticket : Ticket} (hticket : ∀ time, ticket ≠ .asked time) :
    s.Hushed (s.park i point ticket) := by
  intro j point' time hj
  by_cases he : j = i
  · subst he
    have hself : (s.park j point ticket).tasks j = some ⟨point, ticket⟩ := Function.update_self ..
    exact absurd (Task.mk.inj (Option.some.inj (hself.symm.trans hj))).2 (hticket time)
  · exact (park_goes.other j he).symm.trans hj

theorem hushed_parkReady {point : Point} {outcome : Outcome} {rounds : ℕ} :
    s.Hushed (s.parkReady i point outcome rounds) := hushed_park nofun

/-- Nor does one that awaits the presentations. -/
theorem hushed_awaitPresentations {point : Point} : s.Hushed (s.awaitPresentations i point) := by
  unfold Host.awaitPresentations
  split
  · exact hushed_parkReady
  · exact hushed_park nofun

/-- Nor does a new presentation. -/
theorem hushed_enqueueAlert {candidates : List AlertCandidateView} : s.Hushed (s.enqueueAlert candidates) :=
  hushed_awaitPresentations (s := { s.update fun c => c.rememberAll candidates with called := s.called + 1 })

/-- Nor does a task that is over. -/
theorem hushed_finish : s.Hushed (s.finish i) := by
  intro j point time hj
  obtain ⟨hne, -⟩ := finish_point (congrArg (Option.map Task.point) hj)
  exact (finish_other hne).symm.trans hj

/-- A promise that settles is asked for no more. -/
theorem hushed_settle {outcome : Outcome} : s.Hushed (s.settle i outcome) := by
  unfold Host.settle
  split
  · exact fun _ _ _ hj => hj
  · exact hushed_parkReady

/-- The task itself is ready from then on. -/
theorem settle_not_asked {outcome : Outcome} {point : Point} {time : ℕ} :
    (s.settle i outcome).tasks i ≠ some ⟨point, .asked time⟩ := by
  intro hj
  have hold := hushed_settle i point time hj
  unfold Host.settle at hj
  rw [hold] at hj
  have hself : (s.parkReady i point outcome (point.promises outcome)).tasks i =
      some ⟨point, .ready outcome (point.promises outcome) s.clock⟩ := Function.update_self ..
  cases hself.symm.trans hj

/-- Rewriting asks nobody. -/
theorem hushed_rewrite {r : ℕ → Task → Task} (hr : Rewrites r) : s.Hushed (s.rewrite r) := by
  intro j point time hj
  obtain ⟨task, ht, htask⟩ := Option.map_eq_some_iff.1 (show (s.tasks j).map (r s.clock) = _ from hj)
  rcases hr.ticket s.clock task with he | ⟨_, _, _, he, _⟩
  · rw [ht, ← he, htask]
  · rw [htask] at he
    cases he

/-- The requests of a closed client are rejected. -/
theorem hushed_cleanup : s.Hushed (s.cleanup m) :=
  hushed_rewrite (s := s.setManager m ProcessManager.cleaned) (rejected_rewrites m)

/-! ## Wires -/

/-- While tasks only fall silent and the wires stay as they are, every answer has its task. -/
theorem Wired.keep (h : s.Wired) (hclock : s.clock ≤ s'.clock) (hhushed : s.Hushed s')
    (hwire : ∀ m, (s'.cores m).wire = (s.cores m).wire)
    (hinbox : ∀ m, ∀ request ∈ (s'.cores m).inbox, request ∈ (s.cores m).inbox) : s'.Wired where
  sorted m := hwire m ▸ h.sorted m
  timely m x hx := (h.timely m x (hwire m ▸ hx)).trans_le hclock
  matched j point time m hj hx := h.matched j point time m (hhushed j point time hj) (hwire m ▸ hx)
  kept j point time m hj hm := hwire m ▸ h.kept j point time m (hhushed j point time hj) hm
  commanded j point time m hj request hr :=
    h.commanded j point time m (hhushed j point time hj) request (hinbox m request hr)

/-- In particular while no core changes. -/
theorem Wired.cores_eq (h : s.Wired) (hclock : s.clock ≤ s'.clock) (hhushed : s.Hushed s')
    (hcores : s'.cores = s.cores) : s'.Wired :=
  h.keep hclock hhushed (fun m => by rw [hcores]) fun m _ hr => hcores ▸ hr

/-- A core may drop requests as long as its wire stays. -/
theorem Wired.setCore {g : Core → Core} (h : s.Wired) (hwire : ∀ core, (g core).wire = core.wire)
    (hinbox : ∀ core, ∀ request ∈ (g core).inbox, request ∈ core.inbox) : (s.setCore m g).Wired := by
  refine h.keep le_rfl (fun _ _ _ hj => hj) (setCore_keeps hwire) fun m' request hr => ?_
  by_cases he : m' = m
  · subst he
    rw [setCore_self] at hr
    exact hinbox _ request hr
  · rwa [setCore_of_ne he] at hr

theorem Wired.kill (h : s.Wired) : (s.kill m).Wired := h.setCore (fun _ => rfl) fun _ _ hr => hr

/-- What a manager hears of its child leaves the wires as they are. -/
theorem Wired.hears (h : s.Wired) (hh : s.Hears m e s') : s'.Wired := by
  cases hh with
  | exit => exact h.setCore (fun _ => rfl) fun _ _ hr => hr
  | stdoutClosed => exact h
  | childError => exact h

theorem Wired.cleanup (h : s.Wired) : (s.cleanup m).Wired := h.cores_eq (Nat.le_add_left _ _) hushed_cleanup rfl

theorem Wired.stop (h : s.Wired) (stopping : Bool) : (s.setStopping m stopping).Wired :=
  h.cores_eq le_rfl (fun _ _ _ hj => hj) rfl

theorem Wired.failStart (h : s.Wired) : (s.failStart m).Wired := (h.stop true).kill.cleanup.stop false

/-- An answer that was read is off the wire. -/
theorem Wired.settle {outcome : Outcome} (h : s.Wired) : (s.settle i outcome).Wired :=
  h.cores_eq settle_clock hushed_settle settle_cores

/-- A request is sent; the one who sends it may await its answer. -/
theorem Wired.send {command : HostCommandType} (h : s.Wired) (hclock : s'.clock = s.clock + 1)
    (hself : s'.cores m = (s.cores m).asked i s.clock command)
    (hother : ∀ m', m' ≠ m → s'.cores m' = s.cores m')
    (htimed : ∀ j point time, s.tasks j = some ⟨point, .asked time⟩ → time < s.clock)
    (htasks : ∀ j point time, s'.tasks j = some ⟨point, .asked time⟩ → s.tasks j = some ⟨point, .asked time⟩ ∨
      j = i ∧ time = s.clock ∧ point.manager = some m ∧ point.command = some command) : s'.Wired := by
  -- The new entry is the last one on the wire, with the latest time.
  have hwire : (s'.cores m).wire = (s.cores m).wire ++ [(i, s.clock)] := by
    rw [hself]
    simp [Core.wire, Core.asked]
  have hmem : ∀ m', ∀ x ∈ (s'.cores m').wire, x ∈ (s.cores m').wire ∨ m' = m ∧ x = (i, s.clock) := by
    intro m' x hx
    by_cases he : m' = m
    · subst he
      rw [hwire, List.mem_append, List.mem_singleton] at hx
      exact hx.imp_right fun hx => ⟨rfl, hx⟩
    · rw [hother m' he] at hx
      exact .inl hx
  have hold : ∀ m', ∀ x ∈ (s.cores m').wire, x ∈ (s'.cores m').wire := by
    intro m' x hx
    by_cases he : m' = m
    · subst he
      rw [hwire]
      exact List.mem_append_left _ hx
    · rwa [hother m' he]
  refine ⟨fun m' => ?_, fun m' x hx => ?_, fun j point time m' hj hx => ?_, fun j point time m' hj hm' => ?_,
    fun j point time m' hj request hr htask htime => ?_⟩
  · by_cases he : m' = m
    · subst he
      rw [hwire, List.pairwise_append]
      refine ⟨h.sorted m', List.pairwise_singleton _ _, fun x hx y hy => ?_⟩
      rw [List.mem_singleton.1 hy]
      exact h.timely m' x hx
    · rw [hother m' he]
      exact h.sorted m'
  · rcases hmem m' x hx with hx | ⟨-, rfl⟩
    · have := h.timely m' x hx
      omega
    · show s.clock < _
      omega
  · rcases htasks j point time hj with hj | ⟨rfl, rfl, hm, -⟩
    · rcases hmem m' _ hx with hx | ⟨-, he⟩
      · exact h.matched j point time m' hj hx
      · -- The new entry has a time that no earlier task waits for.
        have hlt := htimed j point time hj
        have heq : time = s.clock := congrArg Prod.snd he
        omega
    · rcases hmem m' _ hx with hx | ⟨rfl, -⟩
      · exact absurd (h.timely m' _ hx) (lt_irrefl _)
      · exact hm
  · rcases htasks j point time hj with hj | ⟨rfl, rfl, hm, -⟩
    · exact hold m' _ (h.kept j point time m' hj hm')
    · obtain rfl := Option.some.inj (hm.symm.trans hm')
      rw [hwire]
      exact List.mem_append_right _ (List.mem_singleton_self _)
  · have hr : request ∈ (s.cores m').inbox ∨ request = ⟨i, s.clock, command⟩ := by
      by_cases he : m' = m
      · subst he
        rw [hself] at hr
        simpa [Core.asked] using hr
      · rw [hother m' he] at hr
        exact .inl hr
    rcases htasks j point time hj with hj | ⟨rfl, rfl, -, hcommand⟩
    · rcases hr with hr | rfl
      · exact h.commanded j point time m' hj request hr htask htime
      · have hlt := htimed j point time hj
        have heq : s.clock = time := htime
        omega
    · rcases hr with hr | rfl
      · -- An older request has another time.
        have hx : (request.task, request.time) ∈ (s.cores m').wire :=
          List.mem_append_right _ (List.mem_map_of_mem hr)
        have hlt := h.timely m' _ hx
        have heq : request.time = s.clock := htime
        simp only at hlt
        omega
      · exact hcommand

/-- A request goes to the end of the wire, with a time that no other has. -/
theorem Wired.request {command : HostCommandType} {point : Point} (h : s.Wired)
    (htimed : ∀ j point time, s.tasks j = some ⟨point, .asked time⟩ → time < s.clock)
    (hm : point.manager = some m) (hcommand : point.command = some command) :
    (s.request i m command point).Wired := by
  unfold Host.request
  split
  · have hself : (s.setCore m fun core => core.asked i s.clock command).cores m =
        (s.cores m).asked i s.clock command := setCore_self ..
    have hother : ∀ m', m' ≠ m → (s.setCore m fun core => core.asked i s.clock command).cores m' = s.cores m' :=
      fun m' he => setCore_of_ne he _
    refine h.send rfl hself hother htimed fun j point' time hj => ?_
    by_cases he : j = i
    · subst he
      have hself : ∀ {s : Host}, (s.park j point (.asked s.clock)).tasks j = some ⟨point, .asked s.clock⟩ :=
        Function.update_self ..
      cases hself.symm.trans hj
      exact .inr ⟨rfl, rfl, hm, hcommand⟩
    · exact .inl ((park_goes.other j he).symm.trans hj)
  · exact h.cores_eq (Nat.le_succ _) hushed_parkReady rfl

/-- The first message of the outbox is the first of the wire. -/
theorem wire_pop {output : CoreOutput} {outbox : List CoreOutput} (hout : (s.cores m).outbox = output :: outbox) :
    (s.cores m).wire = output.answers.toList ++ ((s.pop m outbox).cores m).wire := by
  rw [pop, setCore_self]
  unfold Core.wire
  rw [hout]
  cases output <;> rfl

/-- A message is read: if it is an answer, nobody awaits it any more. -/
theorem Wired.pop {output : CoreOutput} {outbox : List CoreOutput} (h : s.Wired) (hclock : s.clock ≤ s'.clock)
    (hhushed : s.Hushed s') (hcores : s'.cores = (s.pop m outbox).cores) (hout : (s.cores m).outbox = output :: outbox)
    (hnot : ∀ i time outcome, output = .answer i time outcome → ∀ point, s'.tasks i ≠ some ⟨point, .asked time⟩) :
    s'.Wired := by
  have hsub : ∀ m', (s'.cores m').wire.Sublist (s.cores m').wire := by
    intro m'
    rw [hcores]
    by_cases he : m' = m
    · subst he
      rw [wire_pop hout]
      exact List.sublist_append_right _ _
    · rw [Host.pop, setCore_of_ne he]
  have hinbox : ∀ m', (s'.cores m').inbox = (s.cores m').inbox := by
    rw [hcores]
    exact setCore_keeps (by exact fun _ => rfl)
  refine ⟨fun m' => (h.sorted m').sublist (hsub m'),
    fun m' x hx => (h.timely m' x ((hsub m').subset hx)).trans_le hclock,
    fun j point time m' hj hx => h.matched j point time m' (hhushed j point time hj) ((hsub m').subset hx),
    fun j point time m' hj hm' => ?_, fun j point time m' hj request hr =>
      h.commanded j point time m' (hhushed j point time hj) request (hinbox m' ▸ hr)⟩
  have hx := h.kept j point time m' (hhushed j point time hj) hm'
  rw [hcores]
  by_cases he : m' = m
  · subst he
    rw [wire_pop hout, List.mem_append] at hx
    -- A request whose answer was read just now is one that nobody awaits.
    refine hx.resolve_left fun hx => ?_
    cases output with
    | answer i time' outcome =>
      obtain ⟨rfl, rfl⟩ := Prod.mk.inj (Option.some.inj (Option.mem_toList.1 hx))
      exact hnot _ _ _ rfl point hj
    | state market => cases hx
    | alert candidates => cases hx
  · rwa [Host.pop, setCore_of_ne he]

/-- A message that answers nobody is not on the wire. -/
theorem Wired.write {output : CoreOutput} (h : s.Wired) (hout : output.answers = none) : (s.write m output).Wired := by
  have hs : (s.setCore m fun core => { core with outbox := core.outbox ++ [output] }).Wired := by
    refine h.setCore (fun core => ?_) fun _ _ hr => hr
    unfold Core.wire
    rw [List.filterMap_append, List.filterMap_cons_none hout, List.filterMap_nil, List.append_nil]
  exact ⟨hs.sorted, hs.timely, hs.matched, hs.kept, hs.commanded⟩

theorem write_cores {output : CoreOutput} : (s.write m output).cores =
    (s.setCore m fun core => { core with outbox := core.outbox ++ [output] }).cores := rfl

/-- The oldest request becomes the newest answer. -/
theorem work_core {request : Request} {inbox : List Request} {accepts : Bool} {market : MarketStateView} :
    (s.work m request inbox accepts market).cores m =
      { s.cores m with
        phase := (coreAnswer (s.cores m).phase accepts market request.command).1
        inbox := inbox
        outbox := (s.cores m).outbox ++ [.answer request.task request.time
          (coreAnswer (s.cores m).phase accepts market request.command).2] } := by
  rw [Host.work, write_cores, setCore_self, setCore_self]

/-- The other cores do not take part. -/
theorem work_core_of_ne {request : Request} {inbox : List Request} {accepts : Bool} {market : MarketStateView} {m' : ℕ}
    (hne : m' ≠ m) : (s.work m request inbox accepts market).cores m' = s.cores m' := by
  rw [Host.work, write_cores, setCore_of_ne hne, setCore_of_ne hne]

/-- A request that is worked on turns into its answer. -/
theorem Wired.work {request : Request} {inbox : List Request} {accepts : Bool} {market : MarketStateView}
    (h : s.Wired) (hin : (s.cores m).inbox = request :: inbox) : (s.work m request inbox accepts market).Wired := by
  refine h.keep le_rfl (fun _ _ _ hj => hj) (fun m' => ?_) fun m' request' hr => ?_
  · by_cases he : m' = m
    · subst he
      rw [work_core]
      unfold Core.wire
      rw [hin, List.filterMap_append, List.append_assoc]
      rfl
    · rw [work_core_of_ne he]
  · by_cases he : m' = m
    · subst he
      rw [work_core] at hr
      rw [hin]
      exact List.mem_cons_of_mem _ hr
    · rwa [work_core_of_ne he] at hr

/-- The times of requests lie in the past. -/
theorem Sound.timed (h : s.Sound) (j : ℕ) (point : Point) (time : ℕ)
    (hj : s.tasks j = some ⟨point, .asked time⟩) : time < s.clock := (h.tasks j _ hj).timed time rfl

/-- A message that is noted moves no task. -/
theorem noteSent_tasks {type : SignalMessageType} {signalId : String} :
    (s.noteSent m type signalId).tasks = s.tasks := by
  unfold noteSent; split <;> rfl

theorem noteSent_clock {type : SignalMessageType} {signalId : String} :
    (s.noteSent m type signalId).clock = s.clock := by
  unfold noteSent; split <;> rfl

theorem noteSent_cores {type : SignalMessageType} {signalId : String} :
    (s.noteSent m type signalId).cores = s.cores := by
  unfold noteSent; split <;> rfl

/-- A message about a signal is a request. -/
theorem Wired.tell {type : SignalMessageType} {signalId : String} {point : Point} (h : s.Wired) (hs : s.Sound)
    (hm : point.manager = some m) (hcommand : point.command = some type.command) :
    (s.tell i m type signalId point).Wired := by
  have hnoted : (s.noteSent m type signalId).Wired :=
    h.cores_eq noteSent_clock.ge (fun _ _ _ hj => noteSent_tasks ▸ hj) noteSent_cores
  refine hnoted.request (fun j point' time hj => ?_) hm hcommand
  rw [noteSent_clock]
  exact hs.timed j point' time (noteSent_tasks ▸ hj)

/-- The shutdown of the manager that is taken is not on its wire. -/
theorem Wired.take {disposer : Disposer} (h : s.Wired) (hs : s.Sound) : (s.takeManager i disposer).Wired := by
  unfold Host.takeManager Host.shutdownManager
  split
  · exact h.cores_eq (Nat.le_succ _) hushed_parkReady rfl
  · next m _ =>
    split
    · have hself : (s.setCore m fun core => core.asked i s.clock .shutdown).cores m =
          (s.cores m).asked i s.clock .shutdown := setCore_self ..
      have hother : ∀ m', m' ≠ m → (s.setCore m fun core => core.asked i s.clock .shutdown).cores m' = s.cores m' :=
        fun m' he => setCore_of_ne he _
      exact h.send rfl hself hother hs.timed fun j point time hj =>
        .inl (hushed_park (by exact nofun) j point time hj)
    · exact h.cores_eq (Nat.le_succ _) hushed_parkReady rfl

/-- A core that no one has asked yet is started. -/
theorem Wired.newCore (h : s.Wired)
    (hnone : ∀ j point time, s.tasks j = some ⟨point, .asked time⟩ → point.manager ≠ some m) :
    (s.setCore m fun _ => { alive := true }).Wired := by
  have hwire : ∀ m', m' ≠ m → ((s.setCore m fun _ => { alive := true }).cores m') = s.cores m' :=
    fun m' he => setCore_of_ne he _
  have hself : (s.setCore m fun _ => { alive := true }).cores m = { alive := true } := setCore_self ..
  refine ⟨fun m' => ?_, fun m' x hx => ?_, fun j point time m' hj hx => ?_, fun j point time m' hj hm => ?_,
    fun j point time m' hj request hr => ?_⟩
  · by_cases he : m' = m
    · rw [he, hself]
      exact List.Pairwise.nil
    · rw [hwire m' he]
      exact h.sorted m'
  · by_cases he : m' = m
    · rw [he, hself] at hx
      cases hx
    · rw [hwire m' he] at hx
      exact h.timely m' x hx
  · by_cases he : m' = m
    · rw [he, hself] at hx
      cases hx
    · rw [hwire m' he] at hx
      exact h.matched j point time m' hj hx
  · by_cases he : m' = m
    · exact absurd (he ▸ hm) (hnone j point time hj)
    · rw [hwire m' he]
      exact h.kept j point time m' hj hm
  · by_cases he : m' = m
    · rw [he, hself] at hr
      cases hr
    · rw [hwire m' he] at hr
      exact h.commanded j point time m' hj request hr

/-- The wire of a new manager begins with its hello. -/
theorem Wired.create {spawner : Spawner} (h : s.Wired) (hs : s.Sound) : (s.createManager i spawner).Wired := by
  unfold Host.createManager Host.spawnManager
  split
  · refine Wired.request (s := Host.setCore _ _ _) (Wired.newCore ?_ fun j point time hj hm => ?_) hs.timed rfl rfl
    · exact @Wired.cores_eq _ (Host.setManager _ _ _) h le_rfl (fun _ _ _ hj => hj) rfl
    · exact absurd ((hs.tasks j _ hj).uses_manager hm) (lt_irrefl _)
  · exact h.cores_eq (Nat.le_succ _) hushed_parkReady rfl

/-- The next request of a handshake. -/
theorem Wired.handshake {spawner : Spawner} {step : HandshakeStep} (h : s.Wired) (hs : s.Sound) :
    (s.handshakeNext i m spawner step).Wired := by
  cases step with
  | hello => exact h.request hs.timed rfl rfl
  | setWatchlist => exact h.request hs.timed rfl rfl
  | start => exact (h.cores_eq le_rfl (fun _ _ _ hj => hj) rfl : (s.setManager m _).Wired).request hs.timed rfl rfl

/-- **Every part keeps the wires.** -/
theorem Wired.part (hp : s₀.Part e s s') (h : s.Wired) (hs : s.Sound) : s'.Wired := by
  have hsame : s.Hushed s := fun _ _ _ hj => hj
  cases hp with
  | take => exact h.take hs
  | create => exact h.create hs
  | handshake => exact h.handshake hs
  | ask _ _ hp =>
    obtain ⟨-, rfl, rfl⟩ | ⟨-, rfl, rfl, -⟩ := hp
    · exact h.request hs.timed rfl rfl
    · exact h.request hs.timed rfl rfl
  | feedback => exact h.tell hs rfl rfl
  | present => exact h.tell hs rfl rfl
  | answered hopen hout ht =>
    refine h.pop (settle_clock (s := s.pop _ _)) (hushed_settle (s := s.pop _ _)) settle_cores hout
      fun i time outcome he point hj => ?_
    cases he
    exact settle_not_asked (s := s.pop _ _) hj
  | skipped hopen hout hskip => exact @Wired.pop _ (s.pop _ _) _ _ _ h le_rfl hsame rfl hout hskip
  | stateRead hopen hout _ => exact @Wired.pop _ (Host.update _ _) _ _ _ h le_rfl hsame rfl hout nofun
  | alertRead hopen hout _ =>
    exact h.pop (enqueueAlert_clock (s := s.pop _ _)) (hushed_enqueueAlert (s := s.pop _ _)) enqueueAlert_cores hout
      nofun
  | work _ hin => exact h.work hin
  -- What a core writes by itself answers no request.
  | @write _ _ output _ hout =>
    refine h.write ?_
    cases output with
    | answer i time outcome => exact absurd rfl (hout i time outcome)
    | state market => rfl
    | alert candidates => rfl
  | finish _ => exact h.cores_eq le_rfl hushed_finish rfl
  | endLoop _ => exact h.cores_eq le_rfl hushed_finish rfl
  | round _ _ => exact h.cores_eq (Nat.le_succ _) hushed_parkReady rfl
  | thrown _ _ => exact h.cores_eq (Nat.le_succ _) hushed_parkReady rfl
  | dispose _ =>
    exact h.cores_eq (awaitPresentations_clock (s := s.update HostController.retire))
      (hushed_awaitPresentations (s := s.update HostController.retire)) awaitPresentations_cores
  | awaitShutdown _ => exact h.cores_eq awaitPresentations_clock hushed_awaitPresentations awaitPresentations_cores
  | retry _ _ _ => exact h.cores_eq (Nat.le_succ _) (hushed_park nofun) rfl
  | beginLoop _ _ _ _ => exact h.cores_eq (Nat.le_succ _) (hushed_park nofun) rfl
  | declineLoop _ => exact h.cores_eq le_rfl hushed_finish rfl
  | presented _ _ =>
    exact (h.cores_eq le_rfl hushed_finish rfl : (s.finish _).Wired).cores_eq (Nat.le_add_left _ _)
      (hushed_rewrite (s := { s.finish _ with presentationsDone := s.presentationsDone + 1 }) (released_rewrites _)) rfl
  | failStart _ => exact h.failStart.cores_eq le_rfl (fun _ _ _ hj => hj) rfl
  -- From here on connections only close, and what was asked over them is settled.
  | timeout _ _ => exact h.settle
  | shutdownThrows _ _ _ =>
    exact h.cores_eq (settle_clock (s := s.setStopping _ _)) (hushed_settle (s := s.setStopping _ _)) settle_cores
  | shutdownOver _ _ => exact (h.kill.cleanup.stop false).settle
  | signal => exact h.kill
  | unheard _ hh _ => exact h.hears hh
  | close _ hh _ _ => exact (h.hears hh).cleanup
  | disconnect _ hh _ _ _ => exact (h.hears hh).cleanup.cores_eq le_rfl (fun _ _ _ hj => hj) rfl
  | _ => exact h.cores_eq le_rfl hsame rfl

/-- Nothing is on a wire at first. -/
theorem wired_initial (maxRetries : ℕ) : (initial maxRetries).Wired where
  sorted _ := List.Pairwise.nil
  timely _ _ hx := absurd hx List.not_mem_nil
  matched _ _ _ _ hj := nomatch hj
  kept _ _ _ _ hj := nomatch hj
  commanded _ _ _ _ hj := nomatch hj

end Host

end MarketSentinel.Extension
