import MarketSentinel.Extension.OneCore
import MarketSentinel.Extension.Wire

/-!
# Feedback and its run

A message about a signal should go to the core that has produced the signal. What a core writes is read over its
own client, so alerts are presented where they come from. The targets of the user's feedback are remembered by the
controller: `spawnAndStart` keeps the state that it gets from its core without a look at the generation, and a
manager is created without another look at the targets.

* `Known`: what is on its way knows its core.
* `feedback_stays`: messages stay in their run where no targets are taken over (`TargetsApart`).
* `feedback_strays`: a reply that comes while the core is being replaced.
-/

namespace MarketSentinel.Extension

open Lib Lib.Machine

/-- The signals that will be presented from this point, with the manager whose client is used. -/
def Point.signals : Point → List (ℕ × String)
  | flushTurn (some m) ids => ids.map fun id => (m, id)
  | flush m ids => ids.map fun id => (m, id)
  | _ => []

/-- The state with which a promise has settled. -/
def Ticket.state : Ticket → Option MarketStateView
  | ready (.state market) _ _ => some market
  | _ => none

/-- The state that `spawnAndStart` got, with the manager that was asked. -/
def Task.reply (task : Task) : Option (ℕ × MarketStateView) :=
  match task.point with
  | .getState m _ => task.ticket.state.map fun market => (m, market)
  | _ => none

/-- The signals that a task knows. -/
def Task.signals (task : Task) : List (ℕ × String) :=
  task.point.signals ++ task.reply.toList.flatMap fun reply => reply.2.signals.map fun signal => (reply.1, signal.1)

namespace HostController

/-- Feedback about the signal is taken. -/
def Offers (c : HostController) (id : String) : Prop := ∃ target ∈ c.signalFeedbackTargets, target.id = id

variable {c : HostController} {id : String}

/-- What is in a dictionary after a loop of `set`. -/
theorem mem_foldl_set {α : Type*} {f : α → String} {g : α → String} : ∀ (l : List α) (d : Dict String String),
    (∃ label, (l.foldl (fun d a => d.set (f a) (g a)) d).get? id = some label) ↔
      (∃ label, d.get? id = some label) ∨ ∃ a ∈ l, f a = id := by
  intro l
  induction l with
  | nil => simp
  | cons a l ih =>
    intro d
    rw [List.foldl_cons, ih, List.exists_mem_cons_iff, ← or_assoc]
    refine or_congr_left ?_
    rw [Dict.get?_set]
    by_cases he : id = f a
    · simp [he]
    · have hne : f a ≠ id := fun h => he h.symm
      simp [he, hne]

/-- The targets are those that were presented and the signals of the last state. -/
theorem offers_iff : c.Offers id ↔ (∃ target ∈ c.presentedFeedbackTargets, target.id = id) ∨
    ∃ market, c.lastMarket = some market ∧ id ∈ market.signals.map Prod.fst := by
  have hmarket : (∃ signal ∈ (c.lastMarket.map MarketStateView.signals).getD [], signal.1 = id) ↔
      ∃ market, c.lastMarket = some market ∧ id ∈ market.signals.map Prod.fst := by
    cases c.lastMarket <;> simp
  rw [← hmarket]
  unfold Offers signalFeedbackTargets
  have hlabels := @mem_foldl_set id FeedbackTarget FeedbackTarget.id FeedbackTarget.label
    c.presentedFeedbackTargets Dict.empty
  have hset := @mem_foldl_set id (String × String) Prod.fst Prod.snd
    ((c.lastMarket.map MarketStateView.signals).getD [])
    (c.presentedFeedbackTargets.foldl (fun d target => d.set target.id target.label) Dict.empty)
  have hempty : ¬ ∃ label, (Dict.empty : Dict String String).get? id = some label := by simp
  rw [or_iff_right hempty] at hlabels
  rw [hlabels] at hset
  rw [← hset]
  simp only [List.mem_map, Prod.exists, Dict.mem_entries]
  constructor
  · rintro ⟨target, ⟨id', label, hget, rfl⟩, rfl⟩
    exact ⟨label, hget⟩
  · rintro ⟨label, hget⟩
    exact ⟨_, ⟨id, label, hget, rfl⟩, rfl⟩

/-- The bound holds after every target that is remembered. -/
theorem length_rememberFeedbackTarget (targets : List FeedbackTarget) (target : FeedbackTarget) :
    (rememberFeedbackTarget targets target).length ≤ maxFeedbackTargets := by
  unfold rememberFeedbackTarget
  rw [List.rtake_eq_reverse_take_reverse, List.length_reverse]
  exact List.length_take_le _ _

/-- Nothing but the target is added. -/
theorem mem_rememberFeedbackTarget {targets : List FeedbackTarget} {target target' : FeedbackTarget}
    (h : target' ∈ rememberFeedbackTarget targets target) : target' ∈ targets ∨ target' = target := by
  unfold rememberFeedbackTarget at h
  rw [List.rtake_eq_reverse_take_reverse, List.mem_reverse] at h
  have hmem := List.mem_of_mem_take h
  rw [List.mem_reverse, List.mem_append, List.mem_singleton] at hmem
  exact hmem.imp_left fun hmem => (List.mem_filter.1 hmem).1

/-- The bound holds after every alert. -/
theorem length_rememberAll (candidates : List AlertCandidateView)
    (h : c.presentedFeedbackTargets.length ≤ maxFeedbackTargets) :
    (c.rememberAll candidates).presentedFeedbackTargets.length ≤ maxFeedbackTargets := by
  unfold rememberAll
  dsimp only
  induction candidates using List.reverseRecOn with
  | nil => exact h
  | append_singleton candidates candidate _ =>
    rw [List.map_append, List.foldl_append]
    exact length_rememberFeedbackTarget _ _

/-- An alert offers its candidates, and nothing else anew. -/
theorem offers_rememberAll {candidates : List AlertCandidateView} (h : (c.rememberAll candidates).Offers id) :
    c.Offers id ∨ id ∈ candidates.map fun candidate => candidate.signal.id := by
  rw [offers_iff] at h ⊢
  rcases h with ⟨target, hmem, rfl⟩ | hmarket
  · have hfold : ∀ l : List FeedbackTarget, target ∈ l.foldl rememberFeedbackTarget c.presentedFeedbackTargets →
        target ∈ c.presentedFeedbackTargets ∨ target ∈ l := by
      intro l
      induction l using List.reverseRecOn with
      | nil => exact .inl
      | append_singleton l target' ih =>
        intro hmem
        rw [List.foldl_append] at hmem
        rcases mem_rememberFeedbackTarget hmem with hold | rfl
        · exact (ih hold).imp_right (List.mem_append_left _)
        · exact .inr (List.mem_append_right _ (List.mem_singleton_self _))
    rcases hfold _ hmem with hold | hnew
    · exact .inl (.inl ⟨target, hold, rfl⟩)
    · obtain ⟨candidate, hcandidate, rfl⟩ := List.mem_map.1 hnew
      exact .inr (List.mem_map.2 ⟨candidate, hcandidate, rfl⟩)
  · exact .inl (.inr hmarket)

end HostController

namespace Host

variable {s s' s₀ : Host} {i m : ℕ} {e : HostEvent}

/-! ## What is on its way -/

/-- What a task knows and what a core has written, the core has produced. -/
structure Known (s : Host) : Prop where
  tasks : ∀ i task, s.tasks i = some task → ∀ x ∈ task.signals, x ∈ s.produced
  outputs : ∀ m, ∀ output ∈ (s.cores m).outbox, ∀ id ∈ output.signalIds, (m, id) ∈ s.produced

section

variable {point : Point} {outcome : Outcome} {command : HostCommandType}

/-- Only a state tells a task about signals. -/
theorem signals_eq {ticket : Ticket} (h : ticket.state = none) : Task.signals ⟨point, ticket⟩ = point.signals := by
  unfold Task.signals Task.reply
  cases point <;> simp [h]

/-- The time and the rounds of a job say nothing about signals. -/
theorem signals_round (rounds rounds' time time' : ℕ) : Task.signals ⟨point, .ready outcome rounds time⟩ =
    Task.signals ⟨point, .ready outcome rounds' time'⟩ := by
  cases outcome <;> rfl

/-- While tasks and outboxes name no new signals, all that they name was produced. -/
theorem Known.keep (h : s.Known) (hproduced : s.produced ⊆ s'.produced)
    (htasks : ∀ j task, s'.tasks j = some task → ∀ x ∈ task.signals,
      x ∈ s.produced ∨ ∃ task', s.tasks j = some task' ∧ x ∈ task'.signals)
    (hcores : ∀ m, ∀ output ∈ (s'.cores m).outbox, output ∈ (s.cores m).outbox) : s'.Known := by
  refine ⟨fun j task hj x hx => ?_,
    fun m output ho id hid => hproduced (h.outputs m output (hcores m output ho) id hid)⟩
  rcases htasks j task hj x hx with hnew | ⟨task', hj', hx'⟩
  · exact hproduced hnew
  · exact hproduced (h.tasks j task' hj' x hx')

theorem Known.same (h : s.Known) (htasks : s'.tasks = s.tasks) (hcores : s'.cores = s.cores)
    (hproduced : s'.produced = s.produced) : s'.Known :=
  h.keep (by rw [hproduced]; exact fun _ hx => hx) (fun j task hj x hx => .inr ⟨task, htasks ▸ hj, hx⟩)
    fun m output ho => hcores ▸ ho

/-- A task may be parked with signals that were produced. -/
theorem Known.park {ticket : Ticket} (h : s.Known) (hx : ∀ x ∈ Task.signals ⟨point, ticket⟩, x ∈ s.produced) :
    (s.park i point ticket).Known := by
  refine @Known.keep _ (s.park i point ticket) h (fun _ hx => hx) (fun j task hj x hmem => ?_) fun _ _ ho => ho
  by_cases he : j = i
  · subst he
    have hself : (s.park j point ticket).tasks j = some ⟨point, ticket⟩ := Function.update_self ..
    cases hself.symm.trans hj
    exact .inl (hx x hmem)
  · exact .inr ⟨task, (park_goes.other j he).symm.trans hj, hmem⟩

theorem Known.parkReady {rounds : ℕ} (h : s.Known) (hx : ∀ x ∈ point.signals, x ∈ s.produced)
    (ho : (Ticket.ready outcome rounds s.clock).state = none) : (s.parkReady i point outcome rounds).Known := by
  refine h.park fun x hmem => hx x ?_
  rwa [signals_eq ho] at hmem

/-- A core may drop what it has written. -/
theorem Known.setCore {g : Core → Core} (h : s.Known) (hg : ∀ core, (g core).outbox ⊆ core.outbox) :
    (s.setCore m g).Known := by
  refine @Known.keep _ (s.setCore m g) h (fun _ hx => hx) (fun j task hj x hx => .inr ⟨task, hj, hx⟩)
    fun m' output ho => ?_
  by_cases he : m' = m
  · subst he
    rw [setCore_self] at ho
    exact hg _ ho
  · rwa [setCore_of_ne he] at ho

/-- A request may name signals that were produced. -/
theorem Known.request (h : s.Known) (hx : ∀ x ∈ point.signals, x ∈ s.produced) :
    (s.request i m command point).Known := by
  unfold Host.request
  split
  · refine Known.park (h.setCore fun _ _ ho => ho) fun x hmem => hx x ?_
    rwa [signals_eq rfl] at hmem
  · exact h.parkReady hx rfl

theorem Known.awaitPresentations (h : s.Known) (hx : ∀ x ∈ point.signals, x ∈ s.produced) :
    (s.awaitPresentations i point).Known := by
  unfold Host.awaitPresentations
  split
  · exact h.parkReady hx rfl
  · refine h.park fun x hmem => hx x ?_
    rwa [signals_eq rfl] at hmem

theorem Known.finish (h : s.Known) : (s.finish i).Known := by
  refine @Known.keep _ (s.finish i) h (fun _ hx => hx) (fun j task hj x hx => .inr ⟨task, ?_, hx⟩) fun _ _ ho => ho
  obtain ⟨hne, -⟩ := finish_point (congrArg (Option.map Task.point) hj)
  exact (finish_other hne).symm.trans hj

/-- A state that comes back is the answer to a `getState`. -/
theorem reply_eq_some {rounds time : ℕ} {reply : ℕ × MarketStateView}
    (h : Task.reply ⟨point, .ready outcome rounds time⟩ = some reply) :
    ∃ spawner, point = .getState reply.1 spawner ∧ outcome = .state reply.2 := by
  unfold Task.reply Ticket.state at h
  cases point with
  | getState m spawner =>
    cases outcome with
    | state market =>
      cases h
      exact ⟨spawner, rfl, rfl⟩
    | _ => cases h
  | _ => cases h

/-- A promise settles; a state is one that the core has written. -/
theorem Known.settle (h : s.Known)
    (ho : ∀ m spawner ticket market, s.tasks i = some ⟨.getState m spawner, ticket⟩ → outcome = .state market →
      ∀ id ∈ market.signals.map Prod.fst, (m, id) ∈ s.produced) : (s.settle i outcome).Known := by
  unfold Host.settle
  split
  · exact h
  · next task ht =>
    refine h.park fun x hx => ?_
    rcases List.mem_append.1 hx with hx | hx
    · exact h.tasks i task ht x (List.mem_append_left _ hx)
    · obtain ⟨reply, hreply, hx⟩ := List.mem_flatMap.1 hx
      obtain ⟨signal, hsignal, rfl⟩ := List.mem_map.1 hx
      rw [Option.mem_toList] at hreply
      obtain ⟨spawner, hpoint, houtcome⟩ := reply_eq_some hreply
      exact ho _ spawner task.ticket _ (by rw [ht, ← hpoint]) houtcome _ (List.mem_map_of_mem hsignal)

/-- Rewritten tasks may forget signals. -/
theorem Known.rewrite {r : ℕ → Task → Task} (h : s.Known) (hr : ∀ clock task, (r clock task).signals ⊆ task.signals) :
    (s.rewrite r).Known := by
  refine @Known.keep _ (s.rewrite r) h (fun _ hx => hx) (fun j task hj x hx => ?_) fun _ _ ho => ho
  obtain ⟨task', ht, rfl⟩ := Option.map_eq_some_iff.1 (show (s.tasks j).map (r s.clock) = _ from hj)
  exact .inr ⟨task', ht, hr _ _ hx⟩

/-- A rejection names no signal. -/
theorem rejected_signals (m clock : ℕ) (task : Task) : (rejected m clock task).signals ⊆ task.signals := by
  unfold rejected
  split
  · split
    · rw [signals_eq rfl]
      exact List.subset_append_left _ _
    · exact fun _ hx => hx
  · exact fun _ hx => hx

/-- Nor does a turn in the queue. -/
theorem released_signals (turn clock : ℕ) (task : Task) : (released turn clock task).signals ⊆ task.signals := by
  unfold released
  split
  · split
    · rw [signals_eq rfl]
      exact List.subset_append_left _ _
    · exact fun _ hx => hx
  · exact fun _ hx => hx

theorem Known.cleanup (h : s.Known) : (s.cleanup m).Known :=
  Known.rewrite (h.same rfl rfl rfl : (s.setManager m _).Known) (rejected_signals m)

theorem Known.kill (h : s.Known) : (s.kill m).Known := h.setCore fun _ _ ho => ho

/-- Nor does the end of a child. -/
theorem Known.hears (h : s.Known) (hh : s.Hears m e s') : s'.Known := by
  cases hh with
  | exit => exact h.setCore fun _ _ ho => ho
  | stdoutClosed => exact h
  | childError => exact h

theorem Known.stop (h : s.Known) (stopping : Bool) : (s.setStopping m stopping).Known := h.same rfl rfl rfl

theorem Known.failStart (h : s.Known) : (s.failStart m).Known := (h.stop true).kill.cleanup.stop false

/-- A message about a signal names one that its task knew. -/
theorem Known.tell {type : SignalMessageType} {signalId : String} (h : s.Known)
    (hx : ∀ x ∈ point.signals, x ∈ s.produced) : (s.tell i m type signalId point).Known := by
  unfold Host.tell Host.noteSent
  split
  · exact Known.request (h.same rfl rfl rfl) hx
  · exact h.request hx

/-- A message that is read is out of the outbox. -/
theorem Known.pop {output : CoreOutput} {outbox : List CoreOutput} (h : s.Known)
    (hout : (s.cores m).outbox = output :: outbox) : (s.pop m outbox).Known := by
  refine @Known.keep _ (s.pop m outbox) h (fun _ hx => hx) (fun j task hj x hx => .inr ⟨task, hj, hx⟩)
    fun m' output' ho => ?_
  by_cases he : m' = m
  · subst he
    rw [Host.pop, setCore_self] at ho
    rw [hout]
    exact List.mem_cons_of_mem _ ho
  · rwa [Host.pop, setCore_of_ne he] at ho

/-- What a core writes it has produced. -/
theorem Known.write {output : CoreOutput} (h : s.Known) : (s.write m output).Known := by
  refine ⟨fun j task hj x hx => List.mem_append_left _ (h.tasks j task hj x hx), fun m' output' ho id hid => ?_⟩
  by_cases he : m' = m
  · subst he
    rw [write_cores, setCore_self] at ho
    rcases List.mem_append.1 ho with ho | ho
    · exact List.mem_append_left _ (h.outputs m' output' ho id hid)
    · obtain rfl := List.mem_singleton.1 ho
      exact List.mem_append_right _ (List.mem_map_of_mem hid)
  · rw [write_cores, setCore_of_ne he] at ho
    exact List.mem_append_left _ (h.outputs m' output' ho id hid)

/-- An alert of the present generation comes from the manager that is held. -/
theorem Known.enqueueAlert {candidates : List AlertCandidateView} (h : s.Known) (hs : s.Sound)
    (hopen : (s.managers m).connected = true) (hcurrent : s.Current m)
    (hids : ∀ candidate ∈ candidates, (m, candidate.signal.id) ∈ s.produced) : (s.enqueueAlert candidates).Known := by
  have hcalled : Known { s.update fun c => c.rememberAll candidates with called := s.called + 1 } :=
    h.same rfl rfl rfl
  refine Known.same (s := Host.awaitPresentations _ s.called (.flushTurn s.ipc _))
    (hcalled.awaitPresentations fun x hx => ?_) rfl rfl rfl
  cases hipc : s.ipc with
  | none =>
    rw [hipc] at hx
    cases hx
  | some m' =>
    obtain rfl := hs.current_held hopen hcurrent (ipc_eq_some.1 hipc).1
    rw [hipc] at hx
    obtain ⟨id, hid, rfl⟩ := List.mem_map.1 hx
    obtain ⟨candidate, hcandidate, rfl⟩ := List.mem_map.1 hid
    exact hids candidate hcandidate

theorem Known.take {disposer : Disposer} (h : s.Known) : (s.takeManager i disposer).Known := by
  have hnone : ∀ x ∈ ([] : List (ℕ × String)), x ∈ s.produced := fun _ hx => absurd hx List.not_mem_nil
  have hdropped : (s.update HostController.dropManager).Known := h.same rfl rfl rfl
  unfold Host.takeManager Host.shutdownManager
  split
  · exact hdropped.parkReady hnone rfl
  · split
    · refine Known.park ((hdropped.stop true).setCore fun _ _ ho => ho) fun x hx => ?_
      exact hnone x hx
    · exact hdropped.parkReady hnone rfl

theorem Known.create {spawner : Spawner} (h : s.Known) : (s.createManager i spawner).Known := by
  have hnone : ∀ x ∈ ([] : List (ℕ × String)), x ∈ s.produced := fun _ hx => absurd hx List.not_mem_nil
  have hadopted : ∀ pm, ((s.update HostController.adopt).setManager s.control.created fun _ => pm).Known :=
    fun _ => h.same rfl rfl rfl
  unfold Host.createManager Host.spawnManager
  split
  · refine Known.request ((hadopted _).setCore fun _ _ ho => ?_) hnone
    exact absurd ho List.not_mem_nil
  · exact (hadopted _).parkReady hnone rfl

theorem Known.handshake {spawner : Spawner} {step : HandshakeStep} (h : s.Known) :
    (s.handshakeNext i m spawner step).Known := by
  have hnone : ∀ x ∈ ([] : List (ℕ × String)), x ∈ s.produced := fun _ hx => absurd hx List.not_mem_nil
  cases step with
  | hello => exact h.request hnone
  | setWatchlist => exact h.request hnone
  | start => exact Known.request (h.same rfl rfl rfl : (s.setManager m _).Known) hnone

end

/-- **What is on its way was produced.** -/
theorem Known.part (hp : s₀.Part e s s') (h : s.Known) (hw : s.Wired) (hs : s.Sound) : s'.Known := by
  have hnone : ∀ x ∈ ([] : List (ℕ × String)), x ∈ s.produced := fun _ hx => absurd hx List.not_mem_nil
  cases hp with
  | finish _ => exact h.finish
  | endLoop _ => exact Known.finish (h.same rfl rfl rfl)
  | declineLoop _ => exact Known.finish (h.same rfl rfl rfl)
  | round ht _ => exact h.park fun x hx => h.tasks _ _ ht x (signals_round _ _ _ _ ▸ hx)
  | dispose _ => exact Known.awaitPresentations (h.same rfl rfl rfl : (s.update HostController.retire).Known) hnone
  | awaitShutdown _ => exact h.awaitPresentations hnone
  | thrown _ _ => exact h.parkReady hnone rfl
  | take _ => exact h.take
  | create _ => exact h.create
  | handshake _ _ => exact h.handshake
  | failStart _ => exact h.failStart.same rfl rfl rfl
  | retry _ _ _ => exact Known.park (h.same rfl rfl rfl : (s.update HostController.retry).Known) hnone
  | beginLoop _ _ _ _ => exact (h.park hnone : (s.park s.called .backoff .outside).Known).same rfl rfl rfl
  | ask _ _ hp =>
    obtain ⟨-, rfl, -⟩ | ⟨-, rfl, -⟩ := hp
    · exact h.request hnone
    · exact h.request hnone
  | feedback _ _ _ => exact h.tell hnone
  | @present _ _ _ m signalId signalIds point _ hr hp =>
    obtain ⟨time, ht⟩ := hr
    refine h.tell fun x hx => h.tasks _ _ ht x (List.mem_append_left _ ?_)
    obtain rfl | rfl := hp
    · exact List.mem_cons_of_mem _ hx
    · exact List.mem_cons_of_mem _ hx
  | presented _ _ =>
    refine Known.rewrite (h.finish.same rfl rfl rfl) (released_signals _)
  | @answered _ _ i m time point outcome outbox hopen hout ht =>
    refine (h.pop hout).settle fun m' spawner ticket market hget ho id hid => ?_
    -- The answer comes over the client that was asked.
    cases ht.symm.trans hget
    have hwire : (i, time) ∈ (s.cores m).wire := by
      rw [wire_pop hout]
      exact List.mem_append_left _ (List.mem_singleton_self _)
    cases hw.matched i _ time m ht hwire
    refine h.outputs m (.answer i time outcome) (by rw [hout]; exact List.mem_cons_self) id ?_
    rw [ho]
    exact hid
  | skipped _ hout _ => exact h.pop hout
  | stateRead _ hout _ => exact (h.pop hout).same rfl rfl rfl
  | @alertRead _ _ m candidates _ hopen hout hcurrent =>
    refine (h.pop hout).enqueueAlert (hs.setCore (by exact fun _ ha => ha)) hopen hcurrent fun candidate hc => ?_
    refine h.outputs m _ (by rw [hout]; exact List.mem_cons_self) _ (List.mem_map_of_mem hc)
  | timeout _ _ => exact h.settle fun _ _ _ _ _ ho => by cases ho
  | shutdownThrows _ _ _ => exact (h.stop false).settle fun _ _ _ _ _ ho => by cases ho
  | shutdownOver _ _ => exact ((h.kill.cleanup).stop false).settle fun _ _ _ _ _ ho => by cases ho
  | signal => exact h.kill
  | unheard _ hh _ => exact h.hears hh
  | close _ hh _ _ => exact (h.hears hh).cleanup
  | disconnect _ hh _ _ _ => exact (h.hears hh).cleanup.same rfl rfl rfl
  | work _ _ => exact Known.write (h.setCore fun _ _ ho => ho)
  | write _ _ => exact h.write
  | _ => exact h.same rfl rfl rfl

/-! ## What the controller takes over -/

/-- The messages that were sent and the signals that were written. -/
def told (s : Host) : List SignalMessage × List (ℕ × String) := (s.sent, s.produced)

section

variable {point : Point} {outcome : Outcome} {command : HostCommandType}

/-- A request tells the controller nothing. -/
theorem request_told : (s.request i m command point).told = s.told := by
  unfold Host.request; split <;> rfl

theorem awaitPresentations_told : (s.awaitPresentations i point).told = s.told := by
  unfold Host.awaitPresentations; split <;> rfl

/-- Nor does a promise that settles. -/
theorem settle_told : (s.settle i outcome).told = s.told := by
  unfold Host.settle; split <;> rfl

/-- Nor does the end of a manager. -/
theorem takeManager_told {disposer : Disposer} : (s.takeManager i disposer).told = s.told := by
  unfold Host.takeManager Host.shutdownManager
  split
  · rfl
  · split <;> rfl

/-- Nor does a new one. -/
theorem createManager_told {spawner : Spawner} : (s.createManager i spawner).told = s.told := by
  unfold Host.createManager Host.spawnManager
  split
  · exact request_told
  · rfl

theorem enqueueAlert_told {candidates : List AlertCandidateView} : (s.enqueueAlert candidates).told = s.told :=
  awaitPresentations_told (s := { s.update fun c => c.rememberAll candidates with called := s.called + 1 })

/-- Nor does a handshake. -/
theorem handshakeNext_told {spawner : Spawner} {step : HandshakeStep} :
    (s.handshakeNext i m spawner step).told = s.told := by
  cases step <;> exact request_told

/-- Nor does the end of a child. -/
theorem Hears.told (hh : s.Hears m e s') : s'.told = s.told := by cases hh <;> rfl

end

/-- What a part sends: a feedback about a target, or the presentation of a signal that a task knows. -/
theorem Part.told_or (hp : s₀.Part e s s') : s'.told = s.told ∨
    (∃ m type id, (s'.told = (s.sent ++ [⟨m, type, id⟩], s.produced) ∨ s'.told = s.told) ∧
      (s.ipc = some m ∧ s.control.Offers id ∨ ∃ j task, s.tasks j = some task ∧ (m, id) ∈ task.signals)) ∨
    s'.sent = s.sent ∧ s.produced ⊆ s'.produced := by
  have htell : ∀ {i m : ℕ} {type : SignalMessageType} {id : String} {point : Point},
      (s.tell i m type id point).told = (s.sent ++ [⟨m, type, id⟩], s.produced) ∨
        (s.tell i m type id point).told = s.told := by
    intro i m type id point
    unfold Host.tell Host.noteSent
    split
    · exact .inl request_told
    · exact .inr request_told
  cases hp with
  | feedback _ hm hid => exact .inr (.inl ⟨_, _, _, htell, .inl ⟨hm, hid⟩⟩)
  | present hr hp =>
    obtain ⟨time, ht⟩ := hr
    refine .inr (.inl ⟨_, _, _, htell, .inr ⟨_, _, ht, List.mem_append_left _ ?_⟩⟩)
    obtain rfl | rfl := hp <;> exact List.mem_cons_self
  | work _ _ => exact .inr (.inr ⟨rfl, List.subset_append_left _ _⟩)
  | write _ _ => exact .inr (.inr ⟨rfl, List.subset_append_left _ _⟩)
  | take _ => exact .inl takeManager_told
  | create _ => exact .inl createManager_told
  | handshake _ _ => exact .inl handshakeNext_told
  | ask _ _ _ => exact .inl request_told
  | dispose _ => exact .inl (awaitPresentations_told (s := s.update HostController.retire))
  | awaitShutdown _ => exact .inl awaitPresentations_told
  | alertRead _ _ _ => exact .inl enqueueAlert_told
  | answered _ _ _ => exact .inl (settle_told (s := s.pop _ _))
  | timeout _ _ => exact .inl settle_told
  | shutdownThrows _ _ _ => exact .inl (settle_told (s := s.setStopping _ _))
  | shutdownOver _ _ => exact .inl (settle_told (s := ((s.kill _).cleanup _).setStopping _ _))
  | unheard _ hh _ => exact .inl hh.told
  | close _ hh _ _ => exact .inl hh.told
  | disconnect _ hh _ _ _ => exact .inl hh.told
  | _ => exact .inl rfl

/-- What a part lets the controller remember: a state that it asked for, a state or an alert. -/
theorem Part.offers_or (hp : s₀.Part e s s') : (∀ id, s'.control.Offers id → s.control.Offers id) ∨
    (∃ i m spawner market time, s = s₀ ∧ e = .job i ∧
      s.tasks i = some ⟨.getState m spawner, .ready (.state market) 0 time⟩ ∧
      ∀ id, s'.control.Offers id → s.control.Offers id ∨ id ∈ market.signals.map Prod.fst) ∨
    ∃ m output, (s.managers m).connected = true ∧ s.Current m ∧ output ∈ (s.cores m).outbox ∧
      ∀ id, s'.control.Offers id → s.control.Offers id ∨ id ∈ output.signalIds := by
  -- Fewer targets and no other state offer nothing new.
  have hkeep : ∀ {c c' : HostController}, c'.presentedFeedbackTargets ⊆ c.presentedFeedbackTargets →
      (∀ market, c'.lastMarket = some market → c.lastMarket = some market) → ∀ id, c'.Offers id → c.Offers id := by
    intro c c' hpresented hmarket id h
    rw [HostController.offers_iff] at h ⊢
    rcases h with ⟨target, hmem, hid⟩ | ⟨market, hm, hid⟩
    · exact .inl ⟨target, hpresented hmem, hid⟩
    · exact .inr ⟨market, hmarket market hm, hid⟩
  have hstate : ∀ {c : HostController} {market : MarketStateView} {id : String},
      HostController.Offers { c with lastMarket := some market } id →
        c.Offers id ∨ id ∈ market.signals.map Prod.fst := by
    intro c market id h
    rw [HostController.offers_iff] at h
    rcases h with hpresented | ⟨_, hm, hid⟩
    · exact .inl (HostController.offers_iff.2 (.inl hpresented))
    · cases hm
      exact .inr hid
  have hnone : ∀ {c c' : HostController}, c'.lastMarket = none → ∀ market, c'.lastMarket = some market →
      c.lastMarket = some market := by
    intro c c' h market hm
    rw [h] at hm
    cases hm
  cases hp with
  | ran market hr hmarket =>
    rcases hmarket with rfl | ⟨state, rfl, rfl⟩
    · exact .inl fun id h => h
    · obtain ⟨time, ht⟩ := hr
      exact .inr (.inl ⟨_, _, _, state, time, rfl, rfl, ht, fun id h => hstate h⟩)
  | @stateRead _ _ m market _ hopen hout hcurrent =>
    exact .inr (.inr ⟨m, .state market, hopen, hcurrent, by rw [hout]; exact List.mem_cons_self, fun id h => hstate h⟩)
  | alertRead hopen hout hcurrent =>
    refine .inr (.inr ⟨_, _, hopen, hcurrent, by rw [hout]; exact List.mem_cons_self, fun id h => ?_⟩)
    rw [enqueueAlert_control] at h
    exact HostController.offers_rememberAll h
  -- The other parts offer nothing new.
  | dispose _ =>
    rw [disposeManager_control]
    exact .inl (hkeep (List.nil_subset _) fun _ hm => hm)
  | take _ =>
    rw [takeManager_control]
    exact .inl (hkeep (fun _ ht => ht) (hnone rfl))
  | create _ =>
    rw [createManager_control]
    exact .inl fun _ h => h
  | handshake _ _ =>
    rw [handshakeNext_control]
    exact .inl fun _ h => h
  | ask _ _ _ =>
    rw [request_control]
    exact .inl fun _ h => h
  | feedback _ _ _ =>
    rw [tell_control]
    exact .inl fun _ h => h
  | present _ _ =>
    rw [tell_control]
    exact .inl fun _ h => h
  | awaitShutdown _ =>
    rw [awaitPresentations_control]
    exact .inl fun _ h => h
  | answered _ _ _ =>
    rw [settle_control]
    exact .inl fun _ h => h
  | timeout _ _ =>
    rw [settle_control]
    exact .inl fun _ h => h
  | shutdownThrows _ _ _ =>
    rw [Host.shutdownThrows, settle_control]
    exact .inl fun _ h => h
  | shutdownOver _ _ =>
    rw [Host.shutdownOver, settle_control]
    exact .inl fun _ h => h
  | failed => exact .inl (hkeep (List.nil_subset _) (hnone rfl))
  | failStart _ => exact .inl (hkeep (List.nil_subset _) (hnone rfl))
  | unheard _ hh _ =>
    rw [hh.control]
    exact .inl fun _ h => h
  | close _ hh _ _ =>
    refine .inl fun id h => ?_
    rwa [show (Host.cleanup _ _).control = s.control from hh.control] at h
  | disconnect _ hh _ _ _ =>
    exact .inl (hkeep (List.nil_subset _) fun _ hm => (congrArg HostController.lastMarket hh.control).symm.trans hm)
  | _ => exact .inl fun _ h => h

/-! ## Runs -/

/-- The state that the job of the task keeps. -/
def keeps (s : Host) (i : ℕ) : Option (ℕ × MarketStateView) :=
  (s.tasks i).bind fun task =>
    match task.ticket with
    | .ready _ 0 _ => task.reply
    | _ => none

/-- A manager gets a core only while there is no target, and the state that `spawnAndStart` gets is kept only while
no other core is held, unless it has no signals. -/
def TargetsApart (s : Host) : HostEvent → Prop
  | .job i => (s.Creates i → s.spawnOk = true → s.control.signalFeedbackTargets = []) ∧
      ∀ reply ∈ s.keeps i, reply.2.signals = [] ∨ s.ipc = none ∨ s.ipc = some reply.1
  | _ => True

instance (s : Host) (e : HostEvent) : Decidable (s.TargetsApart e) :=
  match e with
  | .job i => inferInstanceAs (Decidable ((s.Creates i → s.spawnOk = true → s.control.signalFeedbackTargets = []) ∧
      ∀ reply ∈ s.keeps i, reply.2.signals = [] ∨ s.ipc = none ∨ s.ipc = some reply.1))
  | .start | .pause | .resume | .restartCore | .shutdown | .feedback _ | .chunk .. | .timeout _ | .delayOver _
  | .shutdownUnanswered _ | .shutdownOver .. | .exit _ | .stdoutClosed _ | .childError _ | .work ..
  | .writeState .. | .writeAlert .. | .settings _ | .spawnable _ =>
    isTrue trivial

/-- The targets are signals of the core that is held, and what was sent went to its own core. -/
structure Own (s : Host) : Prop where
  targets : ∀ m, s.ipc = some m → ∀ id, s.control.Offers id → (m, id) ∈ s.produced
  sent : ∀ message ∈ s.sent, (message.manager, message.signalId) ∈ s.produced

/-- What was produced stays produced. -/
theorem Part.produced_subset (hp : s₀.Part e s s') : s.produced ⊆ s'.produced := by
  rcases hp.told_or with htold | ⟨m, type, id, htold | htold, -⟩ | ⟨-, hsub⟩
  · exact fun _ hx => (Prod.mk.inj htold).2 ▸ hx
  · exact fun _ hx => (Prod.mk.inj htold).2 ▸ hx
  · exact fun _ hx => (Prod.mk.inj htold).2 ▸ hx
  · exact hsub

/-- While the same manager is held, its core is the only one that adds targets. -/
theorem Own.quiet (h : s.Own) (hk : s.Known) (hs : s.Sound) (hp : s₀.Part e s s') (hapart : s₀.TargetsApart e)
    (hipc : s.ipc = some m) {id : String} (ho : s'.control.Offers id) : (m, id) ∈ s.produced := by
  have hheld := (ipc_eq_some.1 hipc).1
  rcases hp.offers_or with hold | ⟨i, m', spawner, market, time, rfl, rfl, ht, hnew⟩ |
    ⟨m', output, hopen, hcurrent, hout, hnew⟩
  · exact h.targets m hipc id (hold id ho)
  · rcases hnew id ho with hold | hid
    · exact h.targets m hipc id hold
    have hkeeps : s.keeps i = some (m', market) := by
      unfold keeps
      rw [ht]
      rfl
    rcases hapart.2 _ hkeeps with hnone | hnone | hsame
    · have hsignals : market.signals = [] := hnone
      rw [hsignals] at hid
      cases hid
    · cases hnone.symm.trans hipc
    · cases hsame.symm.trans hipc
      refine hk.tasks i _ ht _ (List.mem_append_right _ ?_)
      obtain ⟨signal, hsignal, rfl⟩ := List.mem_map.1 hid
      exact List.mem_flatMap.2 ⟨(m', market), List.mem_singleton_self _, List.mem_map_of_mem hsignal⟩
  · rcases hnew id ho with hold | hid
    · exact h.targets m hipc id hold
    · obtain rfl := hs.current_held hopen hcurrent hheld
      exact hk.outputs m output hout id hid

/-- **A part that keeps the targets apart keeps every message with its core.** -/
theorem Own.part (hp : s₀.Part e s s') (hapart : s₀.TargetsApart e) (h : s.Own) (hk : s.Known) (hs : s.Sound) :
    s'.Own := by
  have hsub := hp.produced_subset
  refine ⟨fun m hipc id ho => ?_, fun message hmem => ?_⟩
  · rcases hp.quiet_or with hq | ⟨i, disposer, outcome, rfl, rfl, hr, rfl⟩ |
      ⟨i, spawner, rfl, rfl, hr, rfl⟩ | ⟨m', s₁, rfl, hh, -, -, -, rfl⟩
    · exact hsub (h.quiet hk hs hp hapart (hq.ipc hipc) ho)
    · rw [takeManager_ipc] at hipc
      cases hipc
    · -- The new manager finds no targets.
      obtain ⟨-, hok⟩ := createManager_ipc hipc
      rw [createManager_control] at ho
      obtain ⟨target, htarget, -⟩ := ho
      rw [show s.control.adopt.signalFeedbackTargets = [] from hapart.1 hr.creates hok] at htarget
      cases htarget
    · cases hipc
  · -- What is sent is about a target of the manager that is held, or was known to the task.
    rcases hp.told_or with htold | ⟨m, type, id, htold, hknown⟩ | ⟨hsent, -⟩
    · rw [(Prod.mk.inj htold).1] at hmem
      exact hsub (h.sent message hmem)
    · rcases htold with htold | htold
      · rw [(Prod.mk.inj htold).1] at hmem
        rcases List.mem_append.1 hmem with hmem | hmem
        · exact hsub (h.sent message hmem)
        · obtain rfl := List.mem_singleton.1 hmem
          rcases hknown with ⟨hipc, ho⟩ | ⟨j, task, hj, hx⟩
          · exact hsub (h.targets m hipc id ho)
          · exact hsub (hk.tasks j task hj _ hx)
      · rw [(Prod.mk.inj htold).1] at hmem
        exact hsub (h.sent message hmem)
    · rw [hsent] at hmem
      exact hsub (h.sent message hmem)

/-- Nothing is on its way at first. -/
theorem known_initial (maxRetries : ℕ) : (initial maxRetries).Known where
  tasks _ _ hj := nomatch hj
  outputs _ _ ho := absurd ho List.not_mem_nil

/-- Nothing was sent at first. -/
theorem own_initial (maxRetries : ℕ) : (initial maxRetries).Own where
  targets _ hm := nomatch hm
  sent _ hm := absurd hm List.not_mem_nil

/-- **The presented targets are bounded.** -/
theorem Part.length_presented (hp : s₀.Part e s s')
    (h : s.control.presentedFeedbackTargets.length ≤ maxFeedbackTargets) :
    s'.control.presentedFeedbackTargets.length ≤ maxFeedbackTargets := by
  cases hp with
  | alertRead _ _ _ =>
    rw [enqueueAlert_control]
    exact HostController.length_rememberAll _ h
  | dispose _ =>
    rw [disposeManager_control]
    exact Nat.zero_le _
  | failed => exact Nat.zero_le _
  | failStart _ => exact Nat.zero_le _
  | disconnect _ _ _ _ _ => exact Nat.zero_le _
  | unheard _ hh _ => rwa [hh.control]
  | close _ hh _ _ => rwa [show (Host.cleanup _ _).control = s.control from hh.control]
  | take _ => rwa [takeManager_control]
  | create _ => rwa [createManager_control]
  | handshake _ _ => rwa [handshakeNext_control]
  | ask _ _ _ => rwa [request_control]
  | feedback _ _ _ => rwa [tell_control]
  | present _ _ => rwa [tell_control]
  | awaitShutdown _ => rwa [awaitPresentations_control]
  | answered _ _ _ => rwa [settle_control]
  | timeout _ _ => rwa [settle_control]
  | shutdownThrows _ _ _ => rwa [Host.shutdownThrows, settle_control]
  | shutdownOver _ _ => rwa [Host.shutdownOver, settle_control]
  | _ => exact h

/-- **Feedback stays in its run**, in every run in which no targets are taken over: a message about a signal goes
over the client of the core that has written the signal. The presented targets are bounded in every run. -/
theorem feedback_stays (maxRetries : ℕ) (events : List HostEvent) (s : Host)
    (hrun : run step (initial maxRetries) events = some s) :
    s.control.presentedFeedbackTargets.length ≤ maxFeedbackTargets ∧
      (Along step TargetsApart (initial maxRetries) events →
        ∀ message ∈ s.sent, (message.manager, message.signalId) ∈ s.produced) := by
  constructor
  · have hbound := run_inv_along (C := fun _ _ => True)
      (I := fun s => s.control.presentedFeedbackTargets.length ≤ maxFeedbackTargets)
      (fun _ _ h hp => hp.length_presented h) (Nat.zero_le _) (along_true events _) hrun
    exact hbound.2
  · intro hapart
    have hown := run_inv_along (I := fun s => s.Wired ∧ s.Known ∧ s.Own) (fun {s₀ e s s'} hc hs h hp =>
      ⟨Wired.part hp h.1 hs, Known.part hp h.2.1 h.1 hs, Own.part hp hc h.2.2 h.2.1 hs⟩)
      ⟨wired_initial maxRetries, known_initial maxRetries, own_initial maxRetries⟩ hapart hrun
    exact hown.2.2.2.sent

/-- A state with one signal. -/
def oneSignal : MarketStateView :=
  { noMarket with
    symbols := [{
      symbol := "TSLA", price := none, schedulerLevel := "HIGH", feedStatus := "LIVE", change1m := none
      change5m := none, change15m := none, volumeRatio1m := none, volumeRatio5m := none, ema5 := none, ema20 := none
      rsi14 := none, vwap := none
      activeSignals := [⟨"a", "volume", "UP", "HIGH", "Volume", "", none⟩] }] }

/-- Feedback about a signal of the first state, and an alert that is presented. -/
def ownEvents : List HostEvent :=
  [.start] ++ spawnEvents 0 0 ++ [.work 0 true oneSignal, .chunk 0 1, .job 0, .job 0, .feedback "a",
    .writeAlert 0 [⟨⟨"b", "volume", "UP", "HIGH", "Volume", "", none⟩, "TSLA"⟩], .chunk 0 1, .job 2]

theorem feedback_stays_own : ∃ s, run step (initial 3) ownEvents = some s ∧ s.sent.length = 2 ∧
    ∀ message ∈ s.sent, (message.manager, message.signalId) ∈ s.produced := by
  have hsome : (run step (initial 3) ownEvents).isSome := by decide +kernel
  obtain ⟨s, hs⟩ := Option.isSome_iff_exists.1 hsome
  have hlength : (run step (initial 3) ownEvents).map (fun s => s.sent.length) = some 2 := by decide +kernel
  rw [hs] at hlength
  simp only [Option.map_some, Option.some.injEq] at hlength
  exact ⟨s, hs, hlength, (feedback_stays 3 ownEvents s hs).2 (by decide +kernel)⟩

/-- The reply to the `get_state` of a start comes while a second start shuts the core down. -/
def strayEvents : List HostEvent :=
  [.start] ++ spawnEvents 0 0 ++ [.work 0 true oneSignal, .start, .job 1, .job 1, .chunk 0 1, .job 0, .job 0,
    .shutdownOver 1 false, .job 1, .job 1, .feedback "a"]

/-- The next core gets the feedback about a signal of the first one. -/
theorem feedback_strays : ∃ s, run step (initial 3) strayEvents = some s ∧
    ¬ ∀ message ∈ s.sent, (message.manager, message.signalId) ∈ s.produced := by
  have hsome : (run step (initial 3) strayEvents).isSome := by decide +kernel
  obtain ⟨s, hs⟩ := Option.isSome_iff_exists.1 hsome
  have htold : (run step (initial 3) strayEvents).map told = some ([⟨1, .userFeedback, "a"⟩], [(0, "a")]) := by
    decide +kernel
  rw [hs] at htold
  obtain ⟨hsent, hproduced⟩ := Prod.mk.inj (Option.some.inj htold)
  refine ⟨s, hs, fun h => ?_⟩
  rw [hsent, hproduced] at h
  exact absurd (h _ (List.mem_singleton_self _)) (by decide)

end Host

end MarketSentinel.Extension
