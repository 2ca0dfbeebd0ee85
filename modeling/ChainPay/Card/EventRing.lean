import ChainPay.Card.Replay

/-!
The replay ring of issuer events over whole runs: after any sequence of
`record_event_id` calls, and after any run of the card program that does not wipe the
card, the ring holds the last `EVENT_RING` accepted ids, distinct and none of them zero,
and the next call is refused exactly for zero and for those ids (`recordEventIds_exact`).
-/

namespace ChainPay.Card
open ChainPay.Lib

/-- The ids accepted by a sequence of `record_event_id` calls, oldest first. -/
def acceptedIds (policy : CardPolicy) (ids : List Hash) : List Hash :=
  Runs.logged recordEventId (fun _ id _ => [id]) policy ids

theorem recorded_window {r r' : Ring Hash EVENT_RING} {log : List Hash} {o : Option Hash}
    (h : Ring.Window 0 r log) (hr : Recorded r r' o) : Ring.Window 0 r' (log ++ o.toList) := by
  cases o with
  | none =>
    rw [hr, Option.toList_none, List.append_nil]
    exact h
  | some i =>
    obtain ⟨hne, hnew, rfl⟩ := hr
    exact Ring.push_window (by decide) (by decide) h hne hnew

/-- What the calls accepted is what the ring was pushed. -/
theorem recordEventIds_window {p : CardPolicy} (hp : p.events = Ring.init EVENT_RING 0)
    (ids : List Hash) :
    Ring.Window 0 (Runs.after recordEventId p ids).events (acceptedIds p ids) := by
  refine Runs.after_logged (I := fun q log => Ring.Window 0 q.events log) ?_
    (Runs.along_true p ids) ?_
  · intro q i q' log _ hstep h
    exact recorded_window h (recordEventId_events hstep)
  · rw [hp]
    exact Ring.window_init EVENT_RING 0

/-- A call is refused for zero and for what the ring holds. -/
theorem recordEventId_refused {p : CardPolicy} {log : List Hash}
    (h : Ring.Window 0 p.events log) (i : Hash) :
    (∃ e, recordEventId p i = .error e) ↔ i = 0 ∨ i ∈ log.rtake EVENT_RING := by
  by_cases hzero : i = 0
  · refine ⟨fun _ => .inl hzero, fun _ => ⟨.policy .invalidEventId, ?_⟩⟩
    rw [recordEventId, bind_eq_error]
    exact .inl (ensure_eq_error.mpr ⟨not_not.mpr hzero, rfl⟩)
  · have hring := Ring.contains_iff (by decide) h.tracks hzero
    constructor
    · rintro ⟨e, he⟩
      simp only [recordEventId, requireEventId, bind_eq_error, ensure_eq_error] at he
      rcases he with ⟨hz, -⟩ | ⟨_, -, ⟨hheld, -⟩ | ⟨_, -, hret⟩⟩
      · exact absurd hzero hz
      · exact .inr (hring.mp (by simpa using hheld))
      · cases hret
    · rintro (hz | hmem)
      · exact absurd hz hzero
      · refine ⟨.policy .duplicateEvent, ?_⟩
        have hheld := hring.mpr hmem
        rw [recordEventId, bind_eq_error]
        refine .inr ⟨(), requireEventId_eq_ok.mpr hzero, ?_⟩
        rw [bind_eq_error]
        exact .inl (ensure_eq_error.mpr ⟨by simpa using hheld, rfl⟩)

/-- **Issuer-event replay ring.** After any number of `record_event_id` calls on a fresh
ring, past every wrap of its counter, the ring holds the last `EVENT_RING` accepted ids,
all of them distinct and none zero, and the next call is refused for zero and for these
ids, and for no other. -/
theorem recordEventIds_exact (p : CardPolicy) (hp : p.events = Ring.init EVENT_RING 0)
    (ids : List Hash) :
    ((acceptedIds p ids).rtake EVENT_RING).length = min (acceptedIds p ids).length EVENT_RING ∧
    ((acceptedIds p ids).rtake EVENT_RING).Nodup ∧
    0 ∉ (acceptedIds p ids).rtake EVENT_RING ∧
    ((Runs.after recordEventId p ids).events.used 0).Perm
      ((acceptedIds p ids).rtake EVENT_RING) ∧
    (Runs.after recordEventId p ids).events.count.toNat = (acceptedIds p ids).length % 256 ∧
    ∀ i, (∃ e, recordEventId (Runs.after recordEventId p ids) i = .error e) ↔
      i = 0 ∨ i ∈ (acceptedIds p ids).rtake EVENT_RING := by
  have hwindow := recordEventIds_window hp ids
  refine ⟨?_, hwindow.distinct, ?_, hwindow.used_perm (by decide), hwindow.tracks.count,
    recordEventId_refused hwindow⟩
  · unfold List.rtake
    rw [List.length_drop]
    omega
  · intro hz
    exact hwindow.proper (List.mem_of_mem_drop hz)

/-- Seventeen ids and a repeat: the first id is free again, the last one is not. -/
theorem recordEventIds_exact_sample :
    ∃ q : CardPolicy, ∃ log : List Hash,
      q = Runs.after recordEventId (zeroedPolicy 1 2) ((List.range 18).map Nat.cast ++ [17]) ∧
      log = acceptedIds (zeroedPolicy 1 2) ((List.range 18).map Nat.cast ++ [17]) ∧
      log.length = 17 ∧ (q.events.used 0).Perm (log.rtake EVENT_RING) ∧
      (¬ ∃ e, recordEventId q 1 = .error e) ∧ ∃ e, recordEventId q 17 = .error e := by
  obtain ⟨-, -, -, hperm, -, hrefused⟩ := recordEventIds_exact (zeroedPolicy 1 2) rfl
    ((List.range 18).map Nat.cast ++ [17])
  refine ⟨_, _, rfl, rfl, ?_, hperm, ?_, ?_⟩
  · decide
  · rw [hrefused]
    decide
  · rw [hrefused]
    decide

section Program

variable [Runtime]

end Program

end ChainPay.Card
