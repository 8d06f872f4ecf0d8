import Mcsb.Manager.Reservation

/-!
# Playback

In playback mode every request for slabs is to be nice, so that no wanted
segment is dropped. It is unless a client sends the level that undoes this.
-/

namespace Mcsb
open Effect

set_option maxRecDepth 2000
set_option synthInstance.maxSize 10000

/-- No client asks for the level that playback mode turns into 0. -/
def Event.Nice : Event → Prop
  | .frame _ (.prodNiceLevel level) => level.toInt.bmod (2 ^ 8) ≠ -1
  | _ => True

instance : DecidablePred Event.Nice := fun e => by
  unfold Event.Nice
  split <;> infer_instance

namespace Manager

/-- No segment was dropped. -/
structure NothingDropped (m : Manager) : Prop where
  stats : m.stats.droppedSegs = 0 ∧ m.stats.droppedBytes = 0
  log : ∀ c, ∀ drop ∈ (m.proxy c).dropLog, drop = (0, 0)

/-- In playback mode nothing is dropped, and no client is greedy. -/
structure Playing (m : Manager) : Prop extends m.NothingDropped where
  mode : m.params.playbackMode = true
  nice : ∀ c, (m.proxy c).prodNiceLevel ≠ -1

section
variable {m : Manager} {c : Nat}

theorem Playing.of_settings {m' : Manager} (h : m.Playing) (same : m'.settings = m.settings) :
    m'.Playing := by
  simp only [settings, Prod.mk.injEq] at same
  obtain ⟨params, -, -, -, ⟨-, segs, bytes⟩, -, proxy⟩ := same
  exact ⟨⟨segs ▸ bytes ▸ h.stats, proxy ▸ h.log⟩, params ▸ h.mode, proxy ▸ h.nice⟩

theorem Playing.setProxy (h : m.Playing) {p : ClientProxy} (nice : p.prodNiceLevel ≠ -1)
    (log : ∀ drop ∈ p.dropLog, drop = (0, 0)) : (m.setProxy c p).Playing := by
  refine ⟨⟨h.stats, fun x => ?_⟩, h.mode, fun x => ?_⟩
  · by_cases here : x = c
    · rwa [here, proxy_setProxy]
    · rw [proxy_setProxy_of_ne _ here]
      exact h.log x
  · by_cases here : x = c
    · rwa [here, proxy_setProxy]
    · rw [proxy_setProxy_of_ne _ here]
      exact h.nice x

instance : Steady (Stays Playing) where
  inside same _ _ h := h.of_settings same
  proxy {m c p} same h := by
    simp only [ClientProxy.settings, Prod.mk.injEq] at same
    obtain ⟨-, -, -, -, -, -, -, -, level, -, log, -⟩ := same
    exact h.setProxy (level ▸ h.nice c) (log ▸ h.log c)

instance : Sending (Stays Playing) where
  sending {_ c} _ _ h := h.setProxy (h.nice c) (h.log c)

instance : Registering (Stays Playing) where
  registering {_ c} _ h := h.setProxy (h.nice c) (h.log c)

instance : Wanting (Stays Playing) where
  wanting {_ c} _ h := h.setProxy (h.nice c) (h.log c)

instance : Grouping (Stays Playing) where
  groups _ h := ⟨⟨h.stats, h.log⟩, h.mode, h.nice⟩
  member {_ c} _ h := h.setProxy (h.nice c) (h.log c)

instance : Copying (Stays Playing) where
  blockInfo _ _ h := ⟨⟨h.stats, h.log⟩, h.mode, h.nice⟩

instance : Resizing (Stays Playing) where
  resized {_ c} _ _ h := h.setProxy (h.nice c) (h.log c)

instance : Growing (Stays Playing) where
  buffers _ _ _ h := ⟨⟨h.stats, h.log⟩, h.mode, h.nice⟩
  granted {_ c} _ _ h := h.setProxy (h.nice c) (h.log c)

theorem Playing.addNoDrops (h : m.Playing) : wp (modify fun m => { m with stats := { m.stats with
    droppedSegs := m.stats.droppedSegs + 0
    droppedBytes := m.stats.droppedBytes + 0 } } : Act PUnit) m (fun _ => Playing)
      (fun _ => Playing) :=
  ⟨⟨h.stats, h.log⟩, h.mode, h.nice⟩

/-- Nothing is dropped on an acknowledgement. -/
instance (c : Nat) : Moves (Stays Playing) (handleDropReportAck c) := .stays fun m h => by
  simp only [handleDropReportAck, sendDropReport, wp_bind, wp_modifyProxy, wp_getProxy,
    proxy_setProxy, setProxy_setProxy]
  generalize ((m.proxy c).dropReporter.ack.dropped 0 0).getReport = result
  have told (dropReporter : DropReporter) : (m.setProxy c { m.proxy c with
      dropReporter, dropLog := (m.proxy c).dropLog ++ [(0, 0)] }).Playing := by
    refine h.setProxy (h.nice c) fun drop mem => ?_
    rcases List.mem_append.mp mem with before | new
    · exact h.log c drop before
    · exact List.mem_singleton.mp new
  rcases result with ⟨_ | _, dropReporter⟩
  · exact (told dropReporter).addNoDrops
  · exact wp_bind.mpr (wp_mono (Moves.wp_stays (told dropReporter)) (fun _ _ h => h.addNoDrops)
      (fun _ _ => id))

/-- Every request is nice. -/
instance (c : Nat) : Moves (Stays Playing) (fillProducerSlabs c) := .stays fun m h => by
  simp only [fillProducerSlabs, requestFreeSlabs, wp_bind, wp_getProxy, wp_ite, wp_pure,
    wp_modifyProxy, wp_get, wp_modify, params_setProxy, h.mode, if_true]
  split
  · exact h
  · rw [if_pos fun zero => h.nice c (by omega)]
    have asked := h.setProxy (c := c) (p := { m.proxy c with pendingFreeSlabRqsts :=
      (m.proxy c).pendingFreeSlabRqsts +
        ((m.proxy c).slabs.prodSlabsNeeded - (m.proxy c).pendingFreeSlabRqsts) }) (h.nice c) (h.log c)
    exact Moves.wp_stays (asked.of_settings rfl)

/-- The queue may be longer than its limit. -/
instance (c : Nat) (seg : WantedSegment) : Moves (Stays Playing) (popWanted c seg) :=
  .stays fun m h => by
    have queued (n : Nat) : n ≤ maxWantedQueueSize ∨ m.params.playbackMode = true := .inr h.mode
    rw [popWanted, wp_bind, wp_get]
    dsimp only
    split
    · refine wp_bind.mpr (wp_mono (Moves.wp_stays h) (fun taken m' h => ?_) (fun _ _ => id))
      rw [if_pos (queued _)]
      exact Moves.wp_stays h
    · exact Moves.wp_stays h

/-- No handler drops, if no level is the one that undoes playback mode. -/
theorem handle_playing {f : Frame} (nice : (Event.frame c f).Nice) :
    Moves (Stays Playing) (f.handle c) := by
  apply Gentle.moves_handle
  case registration =>
    intro type cid gid msgIDs _
    infer_instance
  case wanted =>
    intro wantNew wantCurrent _
    infer_instance
  case level =>
    intro level isLevel
    subst isLevel
    exact .modify fun _ h => h.setProxy nice (h.log c)

theorem wp_deleteClient_playing (h : m.Playing) (c : Nat) :
    wp (deleteClient c) m (fun _ => Playing) (fun _ _ => True) :=
  wp_deleteClient.mpr (wp_mono (Moves.wp_stays ⟨⟨h.stats, h.log⟩, h.mode, h.nice⟩) (fun _ _ => id)
    (fun _ _ _ => trivial))

theorem zero_ne : (0 : Int) ≠ -1 := by decide

theorem wp_run_playing {e : Event} (h : m.Playing) (nice : e.Nice) :
    wp e.run m (fun _ => Playing) (fun _ _ => True) := by
  cases e with
  | connect addr accepts =>
    refine Gentle.wp_addConnectedClient (R := Stays Playing) h fun c next m' _ stays => ?_
    have fresh := Playing.setProxy (m := { m with nextNewClientID := next }) (c := c)
      (p := { clientID := c, addr, sock := { accepts } })
      ⟨⟨h.stats, h.log⟩, h.mode, h.nice⟩ zero_ne (fun _ mem => nomatch mem)
    have joined := stays fresh
    exact ⟨⟨⟨joined.stats, joined.log⟩, joined.mode, joined.nice⟩, joined⟩
  | hangup c => exact wp_deleteClient_playing h c
  | frame c f =>
    have := handle_playing nice
    refine wp_run_frame.mpr (wp_mono (Moves.wp_stays h) (fun _ _ => id) ?_)
    rintro e m' h
    cases e with
    | runtimeError what => exact wp_deleteClient_playing h c
    | stuck => trivial

/-- In playback mode nothing is ever dropped, as long as no client asks for the
one level that is then greedy. -/
theorem playback_drops_nothing {params : Params} (mode : params.playbackMode = true)
    {hist : History} (run : Run params (fun _ _ e => e.Nice) hist m) : m.NothingDropped := by
  suffices m.Playing from this.toNothingDropped
  induction run with
  | start first =>
    refine start_eq_some (E := fun _ _ => True) (fun sm _ => ?_) first
    refine wp_mono (Moves.wp_stays (P := Playing) ?_) (fun _ _ => id) (fun _ _ _ => trivial)
    exact ⟨⟨⟨rfl, rfl⟩, fun _ _ mem => nomatch mem⟩, mode, fun _ => zero_ne⟩
  | step _ _ nice stepped ih => exact step_eq_some (wp_run_playing ih nice) stepped

/-- Four slabs in playback mode. -/
def fourSlabsPlayed : Params := { fourSlabs with playbackMode := true }

/-- The first client wants the messages of the second, which sends all it can in
the four slabs, at this level. -/
def plays (level : Int32) : List Event :=
  let seg (blockID : Nat) : Segment :=
    { blockID, info := { (default : BlockInfo) with messageID := 7, size := 10 } }
  [.connect 1 fun _ => true, .frame 0 (.registration .registerList 0 0 [7]),
    .connect 2 fun _ => true, .frame 1 (.prodNiceLevel level), .frame 1 (.numSlabs 2 0 true),
    .frame 1 (.blocksAndInfo [seg 0, seg 1]), .frame 1 (.slabIDs [0, 1]),
    .frame 1 (.blocksAndInfo [seg 2, seg 3]), .frame 1 (.slabIDs [2, 3])]

theorem playback_drops_nothing_nice : ∃ hist m,
    trace fourSlabsPlayed (fun _ _ e => e.Nice) (plays 0) = some (hist, m) ∧
      m.NothingDropped := by
  have ran : (trace fourSlabsPlayed (fun _ _ e => e.Nice) (plays 0)).isSome = true := by
    decide +kernel
  obtain ⟨⟨hist, m⟩, eq⟩ := Option.isSome_iff_exists.mp ran
  exact ⟨hist, m, eq, playback_drops_nothing rfl (run_of_trace eq)⟩

/-- At level -1 the producer is greedy, and the segments in the way are dropped. -/
theorem not_playback_drops_nothing : ¬ ∀ params, params.playbackMode = true → ∀ hist m,
    Run params (fun _ _ _ => True) hist m → m.NothingDropped := by
  intro all
  have ran : (trace fourSlabsPlayed (fun _ _ _ => True) (plays (-1))).any
      (fun run => run.2.stats.droppedSegs = 2) = true := by
    decide +kernel
  obtain ⟨⟨hist, m⟩, eq, dropped⟩ := (Option.any_eq_true _ _).mp ran
  have zero := (all _ rfl _ _ (run_of_trace eq)).stats.1
  rw [of_decide_eq_true dropped] at zero
  cases zero

end
end Manager
end Mcsb
