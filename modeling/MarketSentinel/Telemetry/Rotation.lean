import Mathlib.Data.Finset.Card
import Mathlib.Data.Finset.Range
import MarketSentinel.Lib.Machine
import MarketSentinel.Lib.Shelf
import MarketSentinel.Telemetry.Recovery

/-!
# Rotation of the telemetry files

The files hold the lines of the slots of a shelf (`Lib.Shelf`), whose items are the written payloads.

* `FilesOf`: which files a shelf stands for.
* `load_contents`: the reader gets what the shelf holds.
* `Stored.step`: a write, a write whose rotation stops midway, or a new sink.
* `rotation_suffix`: what the reader gets is a suffix of what was written.
-/

namespace MarketSentinel

open Lib Machine JsonlTelemetrySink

/-- The lines of some payloads. -/
def lineBytes (json : JsonModule) (payloads : List Payload) : Bytes :=
  Lines.join newline (payloads.map (textBytes json))

/-- The files hold the lines of the slots. -/
def FilesOf (json : JsonModule) (shelf : Lib.Shelf Payload) (d : Directory) : Prop :=
  ∀ i, d i = (shelf i).map (lineBytes json)

/-- The operation on slots that a file operation stands for. -/
def FileOp.shelfOp : FileOp → Shelf.Op
  | unlink i => .drop i
  | replace source target => .move source target
  | openAppend => .touch

variable {json : JsonModule} {sink : JsonlTelemetrySink} {shelf : Lib.Shelf Payload} {d : Directory}

/-! ## Simulation -/

theorem FilesOf.update (h : FilesOf json shelf d) (i : ℕ) (payloads : Option (List Payload)) :
    FilesOf json (Function.update shelf i payloads) (Function.update d i (payloads.map (lineBytes json))) := by
  intro j
  by_cases hj : j = i
  · subst hj
    rw [Function.update_self, Function.update_self]
  · rw [Function.update_of_ne hj, Function.update_of_ne hj]
    exact h j

/-- **A file operation** does to the files what its operation does to the slots. -/
theorem FilesOf.apply (h : FilesOf json shelf d) (op : FileOp) :
    FilesOf json (op.shelfOp.apply shelf) (op.apply d) := by
  cases op with
  | unlink i => exact h.update i none
  | replace source target =>
    cases hsource : shelf source with
    | none =>
      have hd : d source = none := by rw [h source, hsource]; rfl
      have hfiles : (FileOp.replace source target).apply d = d := by
        unfold FileOp.apply
        dsimp only
        rw [hd]
      rw [FileOp.shelfOp, Shelf.apply_move_none hsource, hfiles]
      exact h
    | some payloads =>
      have hd : d source = some (lineBytes json payloads) := by rw [h source, hsource]; rfl
      have hfiles : (FileOp.replace source target).apply d =
          Function.update (Function.update d source none) target (some (lineBytes json payloads)) := by
        unfold FileOp.apply
        dsimp only
        rw [hd]
      rw [FileOp.shelfOp, Shelf.apply_move_some hsource, hfiles]
      exact (h.update source none).update target (some payloads)
  | openAppend =>
    have hd : some ((d 0).getD []) = (some ((shelf 0).getD [])).map (lineBytes json) := by
      rw [h 0]
      cases shelf 0 <;> rfl
    have hfiles : FileOp.openAppend.apply d = Function.update d 0 (some ((d 0).getD [])) := rfl
    rw [hfiles, hd]
    exact h.update 0 (some ((shelf 0).getD []))

theorem FilesOf.foldl (ops : List FileOp) : ∀ {shelf : Lib.Shelf Payload} {d : Directory}, FilesOf json shelf d →
    FilesOf json ((ops.map FileOp.shelfOp).foldl Shelf.Op.apply shelf) (ops.foldl FileOp.apply d) := by
  induction ops with
  | nil => exact fun h => h
  | cons op ops ih => exact fun h => ih (h.apply op)

/-- The operations of `_rotate` are a rotation of the slots. -/
theorem rotateOps_shelfOp : sink.rotateOps.map FileOp.shelfOp = Shelf.rotation sink.backupCount := by
  obtain ⟨n, hn⟩ : ∃ n, sink.backupCount = n + 1 := ⟨sink.backupCount - 1, by have := sink.backup_pos; omega⟩
  unfold rotateOps
  rw [hn, Shelf.rotation_succ, List.map_cons, List.map_append, List.map_map]
  rfl

/-- Appending a line pushes its payload. -/
theorem FilesOf.append (h : FilesOf json shelf d) (payload : Payload) :
    FilesOf json (shelf.push payload) (append json d payload) := by
  have hfile : (d 0).getD [] ++ Utf8.encode (json.dumps payload ++ "\n") =
      lineBytes json ((shelf 0).getD [] ++ [payload]) := by
    rw [h 0, encode_line]
    unfold lineBytes
    cases shelf 0 <;> simp
  unfold JsonlTelemetrySink.append
  rw [hfile]
  exact h.update 0 (some _)

/-- A new sink finds nothing to repair. -/
theorem FilesOf.create (h : FilesOf json shelf d) : FilesOf json (Shelf.Op.touch.apply shelf) (create json d) := by
  have hsame : Function.update d 0 (truncateTrailingPartial json (d 0)) = d := by
    have hfile : truncateTrailingPartial json (d 0) = d 0 := by
      rw [h 0]
      cases shelf 0 with
      | none => rfl
      | some payloads => exact truncate_closed (join_complete _)
    rw [hfile, Function.update_eq_self]
  unfold JsonlTelemetrySink.create
  rw [hsame]
  exact h.apply .openAppend

/-! ## Reading -/

theorem rotatedPaths_succ (n : ℕ) (d : Directory) :
    rotatedPaths (n + 1) d = (if (d (n + 1)).isSome then [n + 1] else []) ++ rotatedPaths n d := by
  unfold rotatedPaths
  rw [List.range'_concat, List.reverse_concat, List.filter_cons, Nat.one_mul, Nat.add_comm 1 n]
  split <;> simp

/-- **The reader gets what the shelf holds**, and finds the files healthy. -/
theorem load_contents (h : FilesOf json shelf d) (hread : ∀ i, ∀ payloads ∈ shelf i, ∀ r ∈ payloads, RoundTrips json r)
    (n : ℕ) : (load json n d).records = shelf.contents (n + 1) ∧ (load json n d).healthy = true := by
  have hfile : ∀ i, (readJsonl json (d i)).records = (shelf i).getD [] ∧
      (readJsonl json (d i)).malformedCompleteLines = 0 := by
    intro i
    rw [h i]
    cases hi : shelf i with
    | none => exact ⟨rfl, rfl⟩
    | some payloads =>
      have hjoin : readJsonl json (some (lineBytes json payloads)) = ⟨payloads, false, 0⟩ :=
        readJsonl_join (hread i payloads hi)
      rw [Option.map_some, hjoin]
      exact ⟨rfl, rfl⟩
  constructor
  · have hrecords : (load json n d).records = (rotatedPaths n d).flatMap fun i => (shelf i).getD [] := by
      unfold load
      dsimp only
      rw [List.flatMap_map]
      exact List.flatMap_congr fun i _ => (hfile i).1
    rw [hrecords]
    clear hrecords
    -- A file that is missing is not in the paths, and would have added nothing.
    have hmissing : ∀ i,
        (if (d i).isSome then [i] else []).flatMap (fun i => (shelf i).getD []) = (shelf i).getD [] := by
      intro i
      rw [h i]
      cases hi : shelf i <;> simp [hi]
    induction n with
    | zero =>
      have hpaths : rotatedPaths 0 d = if (d 0).isSome then [0] else [] := rfl
      rw [hpaths, hmissing]
      simp [Shelf.contents]
    | succ n ih =>
      rw [rotatedPaths_succ, List.flatMap_append, hmissing, ih]
      rfl
  · unfold load
    dsimp only
    rw [decide_eq_true_eq, List.sum_eq_zero_iff_forall_eq_nat]
    intro m hm
    rw [List.map_map] at hm
    obtain ⟨i, -, rfl⟩ := List.mem_map.1 hm
    exact (hfile i).2

/-! ## Runs -/

/-- What happens to the files of a path. -/
inductive StorageAction
  | write (record : Payload)
  /-- The process stops in a write, after some operations of the rotation that it may start. -/
  | stop (record : Payload) (k : ℕ)
  /-- A new sink is made on the path. -/
  | create

namespace StorageAction

def isStop : StorageAction → Bool
  | stop .. => true
  | _ => false

/-- What is appended to the file at the path. -/
def payload (sink : JsonlTelemetrySink) : StorageAction → Option Payload
  | write record => projectAllowlist record sink.allowlist
  | stop record _ => projectAllowlist record sink.allowlist
  | create => none

end StorageAction

namespace JsonlTelemetrySink

/-- The files after a write whose rotation stops after `k` operations. -/
def stopped (json : JsonModule) (sink : JsonlTelemetrySink) (d : Directory) (record : Payload) (k : ℕ) : Directory :=
  match projectAllowlist record sink.allowlist with
  | none => d
  | some payload =>
    let d := append json d payload
    if sink.maxBytes ≤ ((d 0).getD []).length then (sink.rotateOps.take k).foldl FileOp.apply d else d

def storageStep (json : JsonModule) (sink : JsonlTelemetrySink) (d : Directory) : StorageAction → Option Directory
  | .write record => some ((sink.write json d record).getD d)
  | .stop record k => some (sink.stopped json d record k)
  | .create => some (create json d)

/-- What a run wrote, in order. -/
def writtenBy (sink : JsonlTelemetrySink) (actions : List StorageAction) : List Payload :=
  actions.flatMap fun a => (a.payload sink).toList

end JsonlTelemetrySink

/-- What a slot may hold: less than `max_bytes`, or that and one payload. -/
def Small (json : JsonModule) (sink : JsonlTelemetrySink) (written payloads : List Payload) : Prop :=
  (lineBytes json payloads).length < sink.maxBytes ∨
    ∃ front, ∃ payload ∈ written, payloads = front ++ [payload] ∧ (lineBytes json front).length < sink.maxBytes

/-- The sizes while no process stops in a rotation. -/
structure Sized (json : JsonModule) (sink : JsonlTelemetrySink) (written : List Payload) (shelf : Lib.Shelf Payload) :
    Prop where
  current : (lineBytes json ((shelf 0).getD [])).length < sink.maxBytes
  slots : ∀ i payloads, shelf i = some payloads → Small json sink written payloads

/-- **What holds of the files after a run.** -/
structure Stored (json : JsonModule) (sink : JsonlTelemetrySink) (actions : List StorageAction)
    (shelf : Lib.Shelf Payload) (d : Directory) : Prop where
  files : FilesOf json shelf d
  suffix : shelf.contents (sink.backupCount + 1) <:+ sink.writtenBy actions
  bounded : ∀ i, sink.backupCount < i → shelf i = none
  sized : (∀ a ∈ actions, a.isStop = false) → Sized json sink (sink.writtenBy actions) shelf

theorem small_mono {written written' payloads : List Payload} (h : Small json sink written payloads)
    (hsub : ∀ r ∈ written, r ∈ written') : Small json sink written' payloads := by
  rcases h with h | ⟨front, payload, hmem, hfront, hlt⟩
  · exact .inl h
  · exact .inr ⟨front, payload, hsub payload hmem, hfront, hlt⟩

theorem lineBytes_nil_small (json : JsonModule) (sink : JsonlTelemetrySink) :
    (lineBytes json []).length < sink.maxBytes :=
  sink.max_pos

/-- The first files: a new sink on an empty directory. -/
theorem stored_init (json : JsonModule) (sink : JsonlTelemetrySink) :
    Stored json sink [] (Shelf.Op.touch.apply fun _ => none) (create json fun _ => none) := by
  have hempty : FilesOf json (fun _ => none) (fun _ => none) := fun _ => rfl
  refine ⟨hempty.create, ?_, fun i hi => ?_, fun _ => ⟨?_, fun i payloads hi => ?_⟩⟩
  · rw [Shelf.contents_touch]
    have hnil : ∀ n, Shelf.contents (fun _ => (none : Option (List Payload))) n = [] := by
      intro n
      induction n with
      | zero => rfl
      | succ n ih => exact ih
    rw [hnil]
    exact List.nil_suffix
  · rw [Shelf.apply_touch, Function.update_of_ne (by omega)]
  · exact lineBytes_nil_small json sink
  · rcases Shelf.apply_source hi with rfl | ⟨j, hj⟩
    · exact .inl (lineBytes_nil_small json sink)
    · cases hj

theorem writtenBy_concat (actions : List StorageAction) (a : StorageAction) :
    sink.writtenBy (actions ++ [a]) = sink.writtenBy actions ++ (a.payload sink).toList := by
  simp [writtenBy]

/-- **A write**, with a rotation that stops after `k` operations if it starts one. -/
theorem Stored.appended {actions : List StorageAction} {a : StorageAction} {payload : Payload}
    (h : Stored json sink actions shelf d)
    (ha : a.payload sink = some payload) (k : ℕ) (hall : a.isStop = false → sink.rotateOps.length ≤ k) :
    ∃ shelf', Stored json sink (actions ++ [a]) shelf'
      (if sink.maxBytes ≤ ((append json d payload 0).getD []).length then
        (sink.rotateOps.take k).foldl FileOp.apply (append json d payload)
      else append json d payload) := by
  have hfiles := h.files.append payload
  have hwritten : sink.writtenBy (actions ++ [a]) = sink.writtenBy actions ++ [payload] := by
    rw [writtenBy_concat, ha]
    rfl
  -- What the files hold is still a suffix of what was written.
  have hsuffix : (shelf.push payload).contents (sink.backupCount + 1) <:+ sink.writtenBy (actions ++ [a]) := by
    obtain ⟨older, holder⟩ := h.suffix
    rw [Shelf.contents_push, hwritten]
    exact ⟨older, by rw [← List.append_assoc, holder]⟩
  have hbounded : ∀ i, sink.backupCount < i → shelf.push payload i = none := fun i hi => by
    unfold Shelf.push
    rw [Function.update_of_ne (by omega)]
    exact h.bounded i hi
  have hslots : (∀ a' ∈ actions ++ [a], a'.isStop = false) → ∀ i payloads, shelf.push payload i = some payloads →
      Small json sink (sink.writtenBy (actions ++ [a])) payloads := by
    intro hstops i payloads hi
    have hbefore := h.sized fun a' ha' => hstops a' (List.mem_append_left _ ha')
    unfold Shelf.push at hi
    rw [Function.update_apply] at hi
    split at hi
    · obtain rfl := Option.some.inj hi
      exact .inr ⟨_, payload, by rw [hwritten]; simp, rfl, hbefore.current⟩
    · refine small_mono (hbefore.slots i payloads hi) fun r hr => ?_
      rw [hwritten]
      exact List.mem_append_left _ hr
  have hcurrent : (append json d payload 0).getD [] = lineBytes json ((shelf.push payload 0).getD []) := by
    rw [hfiles 0]
    unfold Shelf.push
    rw [Function.update_self]
    rfl
  split
  · -- The rotation takes the slots one up.
    have hops : (sink.rotateOps.take k).map FileOp.shelfOp = (Shelf.rotation sink.backupCount).take k := by
      rw [List.map_take, rotateOps_shelfOp]
    have hrotated := hfiles.foldl (sink.rotateOps.take k)
    rw [hops] at hrotated
    refine ⟨_, hrotated, (Shelf.rotation_contents _ _ k).trans hsuffix, Shelf.rotation_bounded hbounded k,
      fun hstops => ⟨?_, ?_⟩⟩
    · -- A rotation that is not stopped leaves slot 0 empty.
      have hk := hall (hstops a (by simp))
      have hlength : (Shelf.rotation sink.backupCount).length ≤ k := by
        rw [← rotateOps_shelfOp, List.length_map]
        exact hk
      obtain ⟨n, hn⟩ : ∃ n, sink.backupCount = n + 1 := ⟨sink.backupCount - 1, by have := sink.backup_pos; omega⟩
      rw [List.take_of_length_le hlength, hn, Shelf.rotation_zero]
      exact lineBytes_nil_small json sink
    · intro i payloads hi
      -- A slot after some operations is empty or was a slot before.
      rcases Shelf.foldl_apply_source hi with rfl | ⟨j, hj⟩
      · exact .inl (lineBytes_nil_small json sink)
      · exact hslots hstops j payloads hj
  · rename_i hsize
    refine ⟨_, hfiles, hsuffix, hbounded, fun hstops => ⟨?_, hslots hstops⟩⟩
    rw [← hcurrent]
    exact not_le.1 hsize

/-- **One action more.** -/
theorem Stored.step {actions : List StorageAction} {a : StorageAction} {d' : Directory}
    (h : Stored json sink actions shelf d)
    (hstep : storageStep json sink d a = some d') : ∃ shelf', Stored json sink (actions ++ [a]) shelf' d' := by
  -- An action that writes nothing leaves the files alone.
  have hidle : a.payload sink = none → Stored json sink (actions ++ [a]) shelf d := by
    intro ha
    have hwritten : sink.writtenBy (actions ++ [a]) = sink.writtenBy actions := by
      rw [writtenBy_concat, ha]
      exact List.append_nil _
    refine ⟨h.files, hwritten ▸ h.suffix, h.bounded, fun hstops => ?_⟩
    rw [hwritten]
    exact h.sized fun a' ha' => hstops a' (List.mem_append_left _ ha')
  cases a with
  | write record =>
    obtain rfl := Option.some.inj hstep
    unfold write
    cases hproject : projectAllowlist record sink.allowlist with
    | none => exact ⟨shelf, hidle hproject⟩
    | some payload =>
      have ha : (StorageAction.write record).payload sink = some payload := hproject
      have happend := h.appended ha sink.rotateOps.length fun _ => le_rfl
      rw [List.take_length] at happend
      exact happend
  | stop record k =>
    obtain rfl := Option.some.inj hstep
    unfold stopped
    cases hproject : projectAllowlist record sink.allowlist with
    | none => exact ⟨shelf, hidle hproject⟩
    | some payload =>
      have ha : (StorageAction.stop record k).payload sink = some payload := hproject
      exact h.appended ha k fun hno => by cases hno
  | create =>
    obtain rfl := Option.some.inj hstep
    have hsame := hidle rfl
    refine ⟨_, hsame.files.create, by rw [Shelf.contents_touch]; exact hsame.suffix, fun i hi => ?_,
      fun hstops => ⟨?_, ?_⟩⟩
    · rw [Shelf.apply_touch, Function.update_of_ne (by omega)]
      exact hsame.bounded i hi
    · rw [Shelf.apply_touch, Function.update_self]
      exact (hsame.sized hstops).current
    · intro i payloads hi
      rcases Shelf.apply_source hi with rfl | ⟨j, hj⟩
      · exact .inl (lineBytes_nil_small json sink)
      · exact (hsame.sized hstops).slots j payloads hj

theorem run_stored {actions : List StorageAction}
    (hrun : run (storageStep json sink) (create json fun _ => none) actions = some d) :
    ∃ shelf, Stored json sink actions shelf d := by
  refine run_history (C := fun _ _ => True) (I := fun pre d => ∃ shelf, Stored json sink pre shelf d)
    ⟨_, stored_init json sink⟩ ?_ (along_true _ _) hrun
  rintro pre a post d₁ d₂ - ⟨shelf, hstored⟩ - hstep
  exact hstored.step hstep

/-- **Rotation suffix law.** A new sink on an empty directory, then any writes, writes that stop between
any two operations of their rotation, and new sinks: the reader gets a suffix of the written payloads and
finds the files healthy, and there are at most `backup_count + 1` files. In a run without such a stop every
file is smaller than `max_bytes`, but for its last line. -/
theorem rotation_suffix {actions : List StorageAction} (hread : ∀ r ∈ sink.writtenBy actions, RoundTrips json r)
    (hrun : run (storageStep json sink) (create json fun _ => none) actions = some d) :
    (load json sink.backupCount d).records <:+ sink.writtenBy actions ∧
    (load json sink.backupCount d).healthy = true ∧
    (∃ files : Finset ℕ, files.card ≤ sink.backupCount + 1 ∧ ∀ i, (d i).isSome ↔ i ∈ files) ∧
    ((∀ a ∈ actions, a.isStop = false) → ∀ i raw, d i = some raw →
      raw.length < sink.maxBytes ∨ ∃ init, ∃ payload ∈ sink.writtenBy actions,
        raw = init ++ (textBytes json payload ++ [newline]) ∧ init.length < sink.maxBytes) := by
  -- What the directory holds is described by a shelf of payloads; the rest is read off it.
  obtain ⟨shelf, h⟩ := run_stored hrun
  have hmem : ∀ i, ∀ payloads ∈ shelf i, ∀ r ∈ payloads, r ∈ sink.writtenBy actions := by
    intro i payloads hi r hr
    have hi' : shelf i = some payloads := hi
    have hle : i < sink.backupCount + 1 := by
      by_contra hgt
      rw [h.bounded i (by omega)] at hi'
      cases hi'
    exact h.suffix.subset (Shelf.mem_contents hle hi' hr)
  obtain ⟨hrecords, hhealthy⟩ :=
    load_contents h.files (fun i payloads hi r hr => hread r (hmem i payloads hi r hr)) sink.backupCount
  refine ⟨hrecords ▸ h.suffix, hhealthy, ?_, fun hstops i raw hi => ?_⟩
  · refine ⟨(Finset.range (sink.backupCount + 1)).filter fun i => (d i).isSome,
      (Finset.card_filter_le _ _).trans (Finset.card_range _).le, fun i => ?_⟩
    rw [Finset.mem_filter, Finset.mem_range]
    refine ⟨fun hsome => ⟨?_, hsome⟩, And.right⟩
    by_contra hgt
    rw [h.files i, h.bounded i (by omega)] at hsome
    cases hsome
  · rw [h.files i] at hi
    obtain ⟨payloads, hpayloads, rfl⟩ := Option.map_eq_some_iff.1 hi
    rcases (h.sized hstops).slots i payloads hpayloads with hlt | ⟨front, payload, hpayload, rfl, hlt⟩
    · exact .inl hlt
    · refine .inr ⟨lineBytes json front, payload, hpayload, ?_, hlt⟩
      unfold lineBytes
      simp

/-- With one backup, a stop after its deletion and another before anything is moved. -/
theorem rotation_suffix_stopped :
    let sink : JsonlTelemetrySink := { maxBytes := 20, backupCount := 1 }
    let row (symbol : String) : Payload := [("symbol", .str symbol)]
    let actions : List StorageAction := [.write (row "B"), .write (row "B"), .write (row "测"),
      .stop (row "B") 1, .create, .stop (row "测") 0, .create, .write (row "B")]
    ∃ d, run (storageStep symbolJson sink) (create symbolJson fun _ => none) actions = some d ∧
      (load symbolJson 1 d).records <:+ [row "B", row "B", row "测", row "B", row "测", row "B"] := by
  intro sink row actions
  have hwritten : sink.writtenBy actions = [row "B", row "B", row "测", row "B", row "测", row "B"] := rfl
  have hread : ∀ r ∈ sink.writtenBy actions, RoundTrips symbolJson r := by
    rw [hwritten]
    intro r hr
    have hrow : r = row "B" ∨ r = row "测" := by
      simp only [List.mem_cons, List.not_mem_nil, or_false] at hr
      tauto
    rcases hrow with rfl | rfl
    · exact (symbolJson_serialises (.inl rfl)).toRoundTrips
    · exact (symbolJson_serialises (.inr rfl)).toRoundTrips
  obtain ⟨d, hrun⟩ : ∃ d, run (storageStep symbolJson sink) (create symbolJson fun _ => none) actions = some d :=
    ⟨_, rfl⟩
  obtain ⟨hsuffix, -⟩ := rotation_suffix hread hrun
  rw [hwritten] at hsuffix
  exact ⟨d, hrun, hsuffix⟩

end MarketSentinel
