import Mcsb.Manager.Reservation

/-!
# Drop reports

A client learns of its drops one report at a time: the next one is sent on the
acknowledgement of the last. In the meantime the drops add up.
-/

namespace Mcsb
open Effect

/-- What the client answers: `ClientImpl::HandleDropReport` acknowledges. -/
def ClientImpl.answers : Sent → List Frame
  | .ctrl (.dropReport _ _) => [.dropReportAck]
  | _ => []

/-- The sums in a drop report. -/
def Sent.report? : Sent → Option (Nat × Nat)
  | .ctrl (.dropReport segs bytes) => some (segs.toNat, bytes.toNat)
  | _ => none

/-- The report for these drops: their sums as they are kept, up to 32 bits. -/
def reportOf (kept : Nat → Nat) (drops : List (Nat × Nat)) : Nat × Nat :=
  (min (kept (drops.map Prod.fst).sum) (2 ^ 32 - 1),
    min (kept (drops.map Prod.snd).sum) (2 ^ 32 - 1))

namespace ClientProxy

/-- The drop reports sent. -/
def reports (p : ClientProxy) : List (Nat × Nat) := p.sock.out.filterMap Sent.report?

/-- The proxy after `SendDropReport` on a socket that takes the write. -/
def reportDrop (p : ClientProxy) (segs bytes : Nat) : ClientProxy :=
  let (report, dropReporter) := (p.dropReporter.dropped segs bytes).getReport
  let p := { p with dropReporter, dropLog := p.dropLog ++ [(segs, bytes)] }
  match report with
  | some (dropSegs, dropBytes) =>
    p.wrote (.ctrl (.dropReport (UInt32.ofNat dropSegs) (UInt32.ofNat dropBytes)))
  | none => p

/-- The socket takes every write. -/
structure Working (p : ClientProxy) : Prop where
  connected : p.sendFailed = false
  accepts : ∀ i, p.sock.accepts i = true

/-- The drops in the order they happened: one batch for each report, and those
still to be reported, of which the sums are kept. -/
structure Batched (p : ClientProxy) (kept : Nat → Nat) (batches : List (List (Nat × Nat)))
    (pending : List (Nat × Nat)) : Prop where
  log : p.dropLog = batches.flatten ++ pending
  reports : p.reports = batches.map (reportOf kept)
  segs : p.dropReporter.segsDropped = kept (pending.map Prod.fst).sum
  bytes : p.dropReporter.bytesDropped = kept (pending.map Prod.snd).sum

end ClientProxy

/-- A client proxy and its client. The client has handled some of the writes to
it, and its answers are on the way back. -/
structure Handshake where
  c : Nat
  m : Manager
  handled : Nat := 0
  toManager : List Frame := []

namespace Handshake

/-- What can happen: drops, other writes to the client, and either side handling
the next message to it. -/
inductive Event where
  | drop (segs bytes : UInt32)
  | send (sent : Sent)
  | client
  | manager

def proxy (s : Handshake) : ClientProxy := s.m.proxy s.c

/-- The reports that the client or the manager has not handled yet. -/
def unacknowledged (s : Handshake) : Nat :=
  ((s.proxy.sock.out.drop s.handled).filterMap Sent.report?).length + s.toManager.length

def act (s : Handshake) (x : Act Unit) : Option Handshake :=
  match x s.m with
  | .ok _ m => some { s with m }
  | .error _ _ => none

def step (s : Handshake) : Event → Option Handshake
  | .drop segs bytes => s.act (sendDropReport s.c segs.toNat bytes.toNat)
  | .send sent => if sent.report? = none then s.act (sendOn s.c s.c sent) else none
  | .client => s.proxy.sock.out[s.handled]?.map fun sent =>
      { s with handled := s.handled + 1, toManager := s.toManager ++ ClientImpl.answers sent }
  | .manager =>
    match s.toManager with
    | [] => none
    | f :: toManager => { s with toManager }.act (f.handle s.c)

/-- The runs from a new proxy whose socket takes every write. -/
inductive Run : Handshake → Prop where
  | start {m c addr accepts} : (∀ i, accepts i = true) →
      m.proxy c = { clientID := c, addr, sock := { accepts } } → Run { c, m }
  | step {s e s'} : Run s → s.step e = some s' → Run s'

/-- At most one report is not acknowledged. The drops are reported in batches,
and if there are drops still to be reported then an acknowledgement is awaited,
on which they are. -/
def DropsReported (kept : Nat → Nat) (s : Handshake) : Prop :=
  s.unacknowledged ≤ 1 ∧ ∃ batches pending, s.proxy.Batched kept batches pending ∧
    ((∃ d ∈ pending, d ≠ (0, 0)) → s.unacknowledged = 1 ∧
      (s.toManager ≠ [] → ∃ s', s.step .manager = some s' ∧
        s'.proxy.reports = s.proxy.reports ++ [reportOf kept pending]))

end Handshake

section
variable {p : ClientProxy} {batches : List (List (Nat × Nat))} {pending : List (Nat × Nat)}
  {segs bytes : Nat}

/-- The sums are kept in 64 bits. -/
abbrev keptIn64 (n : Nat) : Nat := n % 2 ^ 64

theorem DropReporter.segsDropped_dropped (r : DropReporter) (segs bytes : Nat) {n : Nat}
    (eq : r.segsDropped = keptIn64 n) :
    (r.dropped segs bytes).segsDropped = keptIn64 (n + segs) := by
  unfold dropped
  split
  · rename_i zero
    rw [eq, zero.1, Nat.add_zero]
  · refine (congrArg (fun k => (k + segs) % 2 ^ 64) eq).trans ?_
    exact Nat.mod_add_mod n (2 ^ 64) segs

theorem DropReporter.bytesDropped_dropped (r : DropReporter) (segs bytes : Nat) {n : Nat}
    (eq : r.bytesDropped = keptIn64 n) :
    (r.dropped segs bytes).bytesDropped = keptIn64 (n + bytes) := by
  unfold dropped
  split
  · rename_i zero
    rw [eq, zero.2, Nat.add_zero]
  · refine (congrArg (fun k => (k + bytes) % 2 ^ 64) eq).trans ?_
    exact Nat.mod_add_mod n (2 ^ 64) bytes

theorem DropReporter.throttle_dropped (r : DropReporter) (segs bytes : Nat) :
    (r.dropped segs bytes).throttle = r.throttle := by
  unfold dropped
  split <;> rfl

theorem DropReporter.needReport_dropped (r : DropReporter)
    (h : r.needReport = true ∨ (segs, bytes) ≠ (0, 0)) :
    (r.dropped segs bytes).needReport = true := by
  unfold dropped
  split
  · rename_i zero
    exact h.resolve_right fun ne => ne (Prod.ext zero.1 zero.2)
  · rfl

theorem report?_ofNat {a b : Nat} : Sent.report? (.ctrl (.dropReport
    (UInt32.ofNat (min a (2 ^ 32 - 1))) (UInt32.ofNat (min b (2 ^ 32 - 1))))) =
      some (min a (2 ^ 32 - 1), min b (2 ^ 32 - 1)) := by
  have small (n : Nat) : (UInt32.ofNat (min n (2 ^ 32 - 1))).toNat = min n (2 ^ 32 - 1) :=
    UInt32.toNat_ofNat_of_lt' ((Nat.min_le_right n _).trans_lt (by decide))
  rw [Sent.report?, small, small]

/-- The reporter has kept the pending drops and knows if there are any. -/
structure ClientProxy.Kept (p : ClientProxy) (batches : List (List (Nat × Nat)))
    (pending : List (Nat × Nat)) : Prop extends p.Working, p.Batched keptIn64 batches pending where
  need : (∃ d ∈ pending, d ≠ (0, 0)) → p.dropReporter.needReport = true

/-- A drop is added to the pending ones, or all of them are reported. -/
theorem ClientProxy.Kept.reportDrop (h : p.Kept batches pending) (segs bytes : Nat) :
    ((p.reportDrop segs bytes).Kept batches (pending ++ [(segs, bytes)]) ∧
      (p.reportDrop segs bytes).sock.out = p.sock.out ∧
      (p.reportDrop segs bytes).dropReporter.throttle = p.dropReporter.throttle ∧
      ((p.reportDrop segs bytes).dropReporter.needReport = true →
        p.dropReporter.throttle = true)) ∨
    (p.dropReporter.throttle = false ∧
      (p.reportDrop segs bytes).Kept (batches ++ [pending ++ [(segs, bytes)]]) [] ∧
      (p.reportDrop segs bytes).dropReporter.throttle = true ∧
      (p.reportDrop segs bytes).dropReporter.needReport = false ∧
      ∃ dropSegs dropBytes, (p.reportDrop segs bytes).sock.out =
        p.sock.out ++ [.ctrl (.dropReport dropSegs dropBytes)]) := by
  have sumSegs := p.dropReporter.segsDropped_dropped segs bytes h.segs
  have sumBytes := p.dropReporter.bytesDropped_dropped segs bytes h.bytes
  have throttled := p.dropReporter.throttle_dropped segs bytes
  have need : (∃ d ∈ pending ++ [(segs, bytes)], d ≠ (0, 0)) →
      (p.dropReporter.dropped segs bytes).needReport = true := by
    rintro ⟨d, mem, ne⟩
    refine p.dropReporter.needReport_dropped ?_
    rcases List.mem_append.mp mem with before | here
    · exact .inl (h.need ⟨d, before, ne⟩)
    · exact .inr (List.mem_singleton.mp here ▸ ne)
  unfold ClientProxy.reportDrop
  generalize p.dropReporter.dropped segs bytes = r at *
  have log : p.dropLog ++ [(segs, bytes)] = batches.flatten ++ (pending ++ [(segs, bytes)]) := by
    rw [h.log, List.append_assoc]
  by_cases quiet : (!r.needReport || r.throttle) = true
  · left
    rw [show r.getReport = (none, r) from if_pos quiet]
    refine ⟨⟨⟨h.connected, h.accepts⟩, ⟨log, h.reports, ?_, ?_⟩, need⟩, rfl, throttled,
      fun (due : r.needReport = true) => ?_⟩
    · simpa using sumSegs
    · simpa using sumBytes
    · rw [← throttled]
      simpa [due] using quiet
  · right
    rw [show r.getReport = _ from if_neg quiet]
    simp only [Bool.or_eq_true, Bool.not_eq_true', not_or, Bool.not_eq_true,
      Bool.not_eq_false] at quiet
    refine ⟨throttled ▸ quiet.2, ⟨⟨h.connected, h.accepts⟩, ⟨?_, ?_, rfl, rfl⟩, ?_⟩, rfl, rfl, _, _, rfl⟩
    · simpa [ClientProxy.wrote] using log
    · refine (List.filterMap_append : (p.sock.out ++ [_]).filterMap Sent.report? = _).trans ?_
      rw [List.filterMap_cons, report?_ofNat, List.map_append]
      refine congrArg₂ (· ++ ·) h.reports ?_
      rw [List.filterMap_nil, sumSegs, sumBytes]
      simp [reportOf]
    · simp

theorem ClientProxy.Kept.wrote (h : p.Kept batches pending) {sent : Sent}
    (other : sent.report? = none) : (p.wrote sent).Kept batches pending := by
  refine ⟨⟨h.connected, h.accepts⟩, ⟨h.log, ?_, h.segs, h.bytes⟩, h.need⟩
  refine (List.filterMap_append : (p.sock.out ++ [_]).filterMap Sent.report? = _).trans ?_
  rw [List.filterMap_cons, other, List.filterMap_nil, List.append_nil]
  exact h.reports

theorem wp_sendDropReport {m : Manager} {c : Nat} {Q : Manager → Prop} {E : Exc → Manager → Prop}
    (working : (m.proxy c).Working)
    (h : ∀ m', m'.proxy c = (m.proxy c).reportDrop segs bytes → Q m') :
    wp (sendDropReport c segs bytes) m (fun _ => Q) E := by
  simp only [sendDropReport, wp_bind, wp_modifyProxy, wp_getProxy, Manager.proxy_setProxy,
    Manager.setProxy_setProxy]
  unfold ClientProxy.reportDrop at h
  generalize ((m.proxy c).dropReporter.dropped segs bytes).getReport = result at *
  rcases result with ⟨_ | ⟨dropSegs, dropBytes⟩, r⟩
  · exact wp_modify.mpr (h _ (Manager.proxy_setProxy ..))
  · refine wp_bind.mpr (wp_swallow_sendOn ?_)
    rw [wp_modify, Manager.proxy_setProxy, Manager.setProxy_setProxy, ClientProxy.send,
      if_neg (by simp [working.connected]), if_pos (working.accepts _)]
    exact h _ (Manager.proxy_setProxy ..)

theorem wp_sendOn_working {m : Manager} {c : Nat} {sent : Sent} {E : Exc → Manager → Prop}
    (working : (m.proxy c).Working) :
    wp (sendOn c c sent) m (fun _ m' => m'.proxy c = (m.proxy c).wrote sent) E := by
  simp only [sendOn, wp_bind, wp_getProxy, wp_ite, wp_fail, wp_modifyProxy]
  rw [if_neg (by simp [working.connected]), if_pos (working.accepts _)]
  exact Manager.proxy_setProxy ..

theorem wp_handleDropReportAck {m : Manager} {c : Nat} {Q : Manager → Prop}
    {E : Exc → Manager → Prop} (working : (m.proxy c).Working)
    (h : ∀ m', m'.proxy c = ClientProxy.reportDrop
      { m.proxy c with dropReporter := (m.proxy c).dropReporter.ack } 0 0 → Q m') :
    wp (handleDropReportAck c) m (fun _ => Q) E := by
  rw [handleDropReportAck, wp_bind, wp_modifyProxy]
  refine wp_sendDropReport ?_ fun m' eq => h m' ?_
  · rw [Manager.proxy_setProxy]
    exact ⟨working.connected, working.accepts⟩
  · rw [eq, Manager.proxy_setProxy]

end

namespace Handshake

section
variable {s s' : Handshake} {batches : List (List (Nat × Nat))} {pending : List (Nat × Nat)}

/-- An acknowledgement is awaited exactly while the reporter is throttled. -/
structure Waiting (s : Handshake) (batches : List (List (Nat × Nat)))
    (pending : List (Nat × Nat)) : Prop where
  kept : s.proxy.Kept batches pending
  awaited : s.unacknowledged = if s.proxy.dropReporter.throttle then 1 else 0
  answers : ∀ f ∈ s.toManager, f = .dropReportAck
  handled : s.handled ≤ s.proxy.sock.out.length

/-- Between events it is throttled when there is something to report. -/
structure Inv (s : Handshake) (batches : List (List (Nat × Nat))) (pending : List (Nat × Nat)) :
    Prop extends s.Waiting batches pending where
  due : s.proxy.dropReporter.needReport = true → s.proxy.dropReporter.throttle = true

theorem act_of_wp {x : Act Unit} {Q : Manager → Prop}
    (h : wp x s.m (fun _ m => Q m) (fun _ _ => False)) : ∃ m, s.act x = some { s with m } ∧ Q m := by
  unfold act
  unfold wp at h
  split at h
  · exact ⟨_, by simp_all, h⟩
  · exact h.elim

/-- What is unacknowledged after more writes. -/
theorem unacknowledged_append {m : Manager} (new : List Sent)
    (handled : s.handled ≤ s.proxy.sock.out.length)
    (out : (m.proxy s.c).sock.out = s.proxy.sock.out ++ new) :
    unacknowledged { s with m } = s.unacknowledged + (new.filterMap Sent.report?).length := by
  unfold unacknowledged proxy
  rw [out, List.drop_append_of_le_length handled, List.filterMap_append, List.length_append]
  exact Nat.add_right_comm ..

/-- A drop is kept until the acknowledgement, or reported with all the others. -/
theorem Waiting.reportDrop (h : s.Waiting batches pending) {m : Manager} (segs bytes : Nat)
    (eq : m.proxy s.c = s.proxy.reportDrop segs bytes) :
    ∃ batches' pending', Inv { s with m } batches' pending' ∧
      (s.proxy.dropReporter.throttle = false → (∃ d ∈ pending, d ≠ (0, 0)) →
        batches' = batches ++ [pending ++ [(segs, bytes)]]) := by
  rcases h.kept.reportDrop segs bytes with
    ⟨kept, out, throttle, due⟩ | ⟨idle, kept, throttle, need, dropSegs, dropBytes, out⟩
  · rw [← eq] at kept out throttle due
    have same := unacknowledged_append [] h.handled (out.trans (List.append_nil _).symm)
    refine ⟨_, _, ⟨⟨kept, ?_, h.answers, out ▸ h.handled⟩, fun need => throttle.trans (due need)⟩, ?_⟩
    · rw [same, h.awaited]
      exact congrArg (fun b => if b = true then 1 else 0) throttle.symm
    · rintro idle ⟨d, mem, ne⟩
      have throttled := due (kept.need ⟨d, List.mem_append_left _ mem, ne⟩)
      rw [idle] at throttled
      cases throttled
  · rw [← eq] at kept out throttle need
    have more := unacknowledged_append _ h.handled out
    refine ⟨_, _, ⟨⟨kept, ?_, h.answers, ?_⟩, fun _ => throttle⟩, fun _ _ => rfl⟩
    · rw [more, h.awaited, idle]
      exact (if_pos throttle).symm
    · refine h.handled.trans (le_of_le_of_eq ?_ (congrArg List.length out).symm)
      rw [List.length_append]
      exact Nat.le_add_right _ _

theorem length_answers (sent : Sent) :
    (ClientImpl.answers sent).length = ([sent].filterMap Sent.report?).length := by
  unfold ClientImpl.answers
  split
  · rfl
  · rename_i other
    have unreported : sent.report? = none := by
      unfold Sent.report?
      split
      · rename_i segs bytes
        exact absurd rfl (other segs bytes)
      · rfl
    rw [List.filterMap_cons, unreported]
    rfl

/-- The manager handles the acknowledgement. -/
theorem Inv.manager (h : s.Inv batches pending) (answered : s.toManager ≠ []) :
    ∃ s' batches' pending', s.step .manager = some s' ∧ s'.Inv batches' pending' ∧
      ((∃ d ∈ pending, d ≠ (0, 0)) → batches' = batches ++ [pending ++ [(0, 0)]]) := by
  obtain ⟨f, rest, eq⟩ := List.exists_cons_of_ne_nil answered
  obtain rfl := h.answers f (eq ▸ List.mem_cons_self)
  -- no other report is on its way
  have zero : ((s.proxy.sock.out.drop s.handled).filterMap Sent.report?).length + rest.length = 0 := by
    have total := h.awaited
    rw [unacknowledged, eq, List.length_cons] at total
    split at total <;> omega
  let acked : ClientProxy := { s.proxy with dropReporter := s.proxy.dropReporter.ack }
  let s₁ : Handshake := { s with m := s.m.setProxy s.c acked, toManager := rest }
  have proxy : s₁.proxy = acked := Manager.proxy_setProxy ..
  have waiting : s₁.Waiting batches pending := by
    refine ⟨?_, ?_, fun f mem => h.answers f (eq ▸ List.mem_cons_of_mem _ mem), ?_⟩
    · rw [proxy]
      exact ⟨⟨h.kept.connected, h.kept.accepts⟩, ⟨h.kept.log, h.kept.reports, h.kept.segs,
        h.kept.bytes⟩, h.kept.need⟩
    · rw [unacknowledged, proxy]
      exact zero
    · rw [proxy]
      exact h.handled
  obtain ⟨m', acts, batches', pending', inv, reported⟩ := act_of_wp (s := { s with toManager := rest })
    (x := handleDropReportAck s.c) (Q := fun m => ∃ batches' pending',
      Inv { s with m, toManager := rest } batches' pending' ∧
        ((∃ d ∈ pending, d ≠ (0, 0)) → batches' = batches ++ [pending ++ [(0, 0)]]))
    (wp_handleDropReportAck h.kept.toWorking fun m' same => by
      obtain ⟨batches', pending', inv, reported⟩ := waiting.reportDrop 0 0
        (same.trans (congrArg (ClientProxy.reportDrop · 0 0) proxy.symm))
      exact ⟨batches', pending', inv, reported (by rw [proxy]; rfl)⟩)
  refine ⟨_, batches', pending', ?_, inv, reported⟩
  rw [step, eq]
  exact acts

theorem Inv.step (h : s.Inv batches pending) {e : Event} (stepped : s.step e = some s') :
    ∃ batches pending, s'.Inv batches pending := by
  cases e with
  | drop segs bytes =>
    obtain ⟨m, acts, batches, pending, inv⟩ := act_of_wp (s := s) (Q := fun m =>
      ∃ batches pending, Inv { s with m } batches pending)
      (wp_sendDropReport h.kept.toWorking fun m same => by
        obtain ⟨batches, pending, inv, -⟩ := h.reportDrop segs.toNat bytes.toNat same
        exact ⟨batches, pending, inv⟩)
    cases acts.symm.trans stepped
    exact ⟨batches, pending, inv⟩
  | send sent =>
    rw [Handshake.step] at stepped
    split at stepped
    · rename_i other
      have working := h.kept.toWorking
      obtain ⟨m, acts, same⟩ := act_of_wp (s := s) (x := sendOn s.c s.c sent)
        (Q := fun m => m.proxy s.c = s.proxy.wrote sent) (wp_sendOn_working working)
      cases acts.symm.trans stepped
      have out : (m.proxy s.c).sock.out = s.proxy.sock.out ++ [sent] := by rw [same]; rfl
      have more := unacknowledged_append _ h.handled out
      rw [List.filterMap_cons, other] at more
      refine ⟨batches, pending, ⟨?_, ?_, h.answers, ?_⟩, ?_⟩
      · rw [proxy, same]
        exact h.kept.wrote other
      · rw [more, h.awaited, proxy, proxy, same]
        rfl
      · rw [proxy, out, List.length_append]
        exact h.handled.trans (Nat.le_add_right _ _)
      · rw [proxy, same]
        exact h.due
    · cases stepped
  | client =>
    rw [Handshake.step, Option.map_eq_some_iff] at stepped
    obtain ⟨sent, here, eq⟩ := stepped
    cases eq
    obtain ⟨lt, here⟩ := List.getElem?_eq_some_iff.mp here
    refine ⟨batches, pending, ⟨h.kept, ?_, fun f mem => ?_, lt⟩, h.due⟩
    · refine Eq.trans (?_ : ((s.proxy.sock.out.drop (s.handled + 1)).filterMap Sent.report?).length +
        (s.toManager ++ ClientImpl.answers sent).length = s.unacknowledged) h.awaited
      rw [unacknowledged, List.drop_eq_getElem_cons lt, here, ← List.singleton_append,
        List.filterMap_append, List.length_append, List.length_append, length_answers]
      omega
    · rcases List.mem_append.mp mem with before | new
      · exact h.answers f before
      · unfold ClientImpl.answers at new
        split at new
        · exact List.mem_singleton.mp new
        · cases new
  | manager =>
    have answered : s.toManager ≠ [] := fun nil => by
      rw [Handshake.step, nil] at stepped
      cases stepped
    obtain ⟨_, batches, pending, eq, inv, -⟩ := h.manager answered
    cases eq.symm.trans stepped
    exact ⟨batches, pending, inv⟩

theorem inv_of_run (run : Run s) : ∃ batches pending, s.Inv batches pending := by
  induction run with
  | start accepts fresh =>
    refine ⟨[], [], ⟨?_, ?_, fun _ mem => (nomatch mem), Nat.zero_le _⟩, ?_⟩
    · rw [proxy, fresh]
      exact ⟨⟨rfl, accepts⟩, ⟨rfl, rfl, rfl, rfl⟩, fun ⟨_, mem, _⟩ => nomatch mem⟩
    · rw [unacknowledged, proxy, fresh]
      rfl
    · rw [proxy, fresh]
      exact nofun
  | step _ stepped ih =>
    obtain ⟨_, _, inv⟩ := ih
    exact inv.step stepped

/-- Drops are reported one batch at a time, and none is forgotten. -/
theorem drops_reported (run : Run s) : s.DropsReported keptIn64 := by
  obtain ⟨batches, pending, inv⟩ := inv_of_run run
  refine ⟨?_, batches, pending, inv.kept.toBatched, fun drops => ?_⟩
  · rw [inv.awaited]
    split <;> decide
  · refine ⟨by rw [inv.awaited, if_pos (inv.due (inv.kept.need drops))], fun answered => ?_⟩
    obtain ⟨s', batches', pending', acts, inv', reported⟩ := inv.manager answered
    refine ⟨s', acts, ?_⟩
    rw [inv'.kept.reports, inv.kept.reports, reported drops, List.map_append]
    simp [reportOf]

/-- A new proxy, of which the socket takes every write. -/
def fresh : Handshake where
  c := 0
  m := { params := Manager.fourSlabs, slabManager := { slabsPerBuf := 4, pctNonreservable := 50 } }

theorem Run.steps (run : Run s) {events : List Event} {s' : Handshake}
    (stepped : events.foldlM Handshake.step s = some s') : Run s' := by
  induction events generalizing s with
  | nil =>
    cases stepped
    exact run
  | cons e events ih =>
    obtain ⟨s₁, first, rest⟩ := Option.bind_eq_some_iff.mp stepped
    exact ih (.step run first) rest

/-- The second drop waits for the acknowledgement of the first, which reports it. -/
theorem drops_reported_drop : ∃ s s',
    [Event.drop 1 100, .drop 2 50].foldlM Handshake.step fresh = some s ∧
      s.proxy.reports = [(1, 100)] ∧ s.DropsReported keptIn64 ∧
    [Event.client, .manager].foldlM Handshake.step s = some s' ∧
      s'.proxy.reports = [(1, 100), (2, 50)] ∧ s'.DropsReported keptIn64 := by
  have start : Run fresh := @Run.start _ _ 0 _ (fun _ => rfl) rfl
  have dropped : ([Event.drop 1 100, .drop 2 50].foldlM Handshake.step fresh).any
      (fun s => s.proxy.reports = [(1, 100)] ∧
        ([Event.client, .manager].foldlM Handshake.step s).any fun s' =>
          s'.proxy.reports = [(1, 100), (2, 50)]) = true := by
    decide +kernel
  obtain ⟨s, dropped, facts⟩ := (Option.any_eq_true _ _).mp dropped
  obtain ⟨first, answered⟩ := of_decide_eq_true facts
  obtain ⟨s', answered, both⟩ := (Option.any_eq_true _ _).mp answered
  have run := start.steps dropped
  exact ⟨s, s', dropped, first, drops_reported run, answered, of_decide_eq_true both,
    drops_reported (run.steps answered)⟩

theorem step_drop (run : Run s) (segs bytes : UInt32) : ∃ s', s.step (.drop segs bytes) = some s' ∧
    s'.proxy = s.proxy.reportDrop segs.toNat bytes.toNat := by
  obtain ⟨_, _, inv⟩ := inv_of_run run
  obtain ⟨m, acts, same⟩ := act_of_wp (s := s)
    (wp_sendDropReport inv.kept.toWorking fun _ same => same)
  exact ⟨_, acts, same⟩

theorem dropLog_reportDrop (p : ClientProxy) (segs bytes : Nat) :
    (p.reportDrop segs bytes).dropLog = p.dropLog ++ [(segs, bytes)] := by
  unfold ClientProxy.reportDrop
  generalize (p.dropReporter.dropped segs bytes).getReport = result
  rcases result with ⟨_ | _, _⟩ <;> rfl

/-- The first drop is reported, and no more is as it is not acknowledged. -/
theorem run_drops (n : Nat) (bytes : UInt32) : ∃ s, Run s ∧ s.proxy.reports = [(1, 1)] ∧
    s.proxy.dropReporter.throttle = true ∧
    s.proxy.dropLog = (1, 1) :: List.replicate n (1, bytes.toNat) := by
  induction n with
  | zero =>
    have start : Run fresh := @Run.start _ _ 0 _ (fun _ => rfl) rfl
    obtain ⟨s, stepped, same⟩ := step_drop start 1 1
    refine ⟨s, .step start stepped, ?_⟩
    rw [same]
    exact ⟨by decide, by decide, rfl⟩
  | succ n ih =>
    obtain ⟨s, run, reports, throttle, log⟩ := ih
    obtain ⟨s', stepped, same⟩ := step_drop run 1 bytes
    obtain ⟨batches, pending, inv⟩ := inv_of_run run
    refine ⟨s', .step run stepped, ?_⟩
    rw [same, dropLog_reportDrop, log]
    rcases inv.kept.reportDrop (1 : UInt32).toNat bytes.toNat with
      ⟨-, out, still, -⟩ | ⟨idle, -⟩
    · refine ⟨?_, still.trans throttle, ?_⟩
      · rw [ClientProxy.reports, out]
        exact reports
      · rw [List.replicate_succ']
        rfl
    · rw [throttle] at idle
      cases idle

/-- The drops that wait for the acknowledgement do not fit in 64 bits. -/
theorem not_drops_reported : ¬ ∀ s, Run s → s.DropsReported id := by
  intro all
  obtain ⟨n, many⟩ : ∃ n, n = 2 ^ 32 + 2 := ⟨_, rfl⟩
  obtain ⟨s, run, reports, -, log⟩ := run_drops n 0xFFFFFFFF
  obtain ⟨-, batches, pending, batched, -⟩ := all s run
  obtain ⟨_, _, inv⟩ := inv_of_run run
  have small : s.proxy.dropReporter.bytesDropped < 2 ^ 64 :=
    inv.kept.bytes ▸ Nat.mod_lt _ (Nat.two_pow_pos 64)
  have first := batched.reports
  rw [reports] at first
  obtain ⟨batch, rfl⟩ := List.length_eq_one_iff.mp ((List.length_map _).symm.trans
    (congrArg List.length first.symm))
  have one : min (batch.map Prod.snd).sum (2 ^ 32 - 1) = 1 :=
    (congrArg Prod.snd (List.singleton_inj.mp first)).symm
  have total := congrArg (fun drops => (drops.map Prod.snd).sum) (batched.log.symm.trans log)
  simp only [List.flatten_cons, List.flatten_nil, List.append_nil, List.map_append, List.sum_append,
    List.map_cons, List.sum_cons, List.map_replicate, List.sum_replicate_nat] at total
  rw [batched.bytes] at small
  have bytes : (0xFFFFFFFF : UInt32).toNat = 4294967295 := rfl
  rw [bytes] at total
  generalize (batch.map Prod.snd).sum = reported at one total
  generalize (pending.map Prod.snd).sum = waiting at small total
  unfold id at small
  omega

end
end Handshake
end Mcsb
