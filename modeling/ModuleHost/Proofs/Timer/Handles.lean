/-
The handles of timers.

Handles are handed out in turn: from 1 up to the largest word, and then from 1 again, whatever is
pending.  A timer that is made while an older one is pending under the handle whose turn it is
takes the place of that one; every other timer stays as it is.

* `toInt_nextHandle_after` — by induction over runs, the handle whose turn it is;
* `isPending_act`, `toInt_le_of_pending` — a handle that is pending has been handed out, so before
  the handles start again the one whose turn it is is greater than all that are pending;
* `TimerQueue.Fresh`, `fresh_schedule_iff` — a handle is fresh exactly if nothing is pending under
  it;
* `handle_fresh_iff` — the same for the calls of a run;
* `evicting` — a run after which the next timer takes the place of an interval.
-/
import Mathlib
import ModuleHost.Proofs.Timer.Runs

namespace ModuleHost

namespace TimerQueue

variable {q : TimerQueue} {c : TimerCall} {calls : List TimerCall} {t u : Timer}
  {ts : List Timer} {h : Int32} {now : ℕ}

/-! ### Turns -/

/-- The number of handles: after the last one they start again. -/
def handleCount : ℕ := 2 ^ 31 - 1

/-- The handle of the timer that is made after `n` others. -/
def turn (n : ℕ) : ℕ := n % handleCount + 1

theorem turn_of_lt {n : ℕ} (hn : n < handleCount) : turn n = n + 1 := by
  rw [turn, Nat.mod_eq_of_lt hn]

/-- How many timers a run has made. -/
def made (calls : List TimerCall) : ℕ := (lives (empty.moments calls)).length

theorem made_append (calls : List TimerCall) (c : TimerCall) :
    made (calls ++ [c])
      = made calls + (TimerMoment.mk (empty.after calls) c).made?.toList.length := by
  rw [made, made, moments_append, lives_append, List.length_append, List.length_map,
    List.length_map]

theorem after_append_singleton (q : TimerQueue) (calls : List TimerCall) (c : TimerCall) :
    q.after (calls ++ [c]) = (q.after calls).act c := after_append q calls [c]

/-- The handle after that of one timer is that of the next one. -/
theorem toInt_handleAfter_of_turn {n : ℕ} (hh : h.toInt = turn n) :
    (handleAfter h).toInt = turn (n + 1) := by
  have hle : turn n ≤ handleCount := Nat.mod_lt _ (by decide)
  rcases hle.eq_or_lt with hlast | hlt
  · -- they start again
    obtain rfl : h = 2147483647 := by
      rw [← Int32.toInt_inj, hh, hlast]
      rfl
    have hturn : turn (n + 1) = 1 := by
      unfold turn handleCount at hlast ⊢
      omega
    rw [hturn]
    rfl
  · have hturn : turn (n + 1) = turn n + 1 := by
      unfold turn handleCount at hlt ⊢
      omega
    rw [hturn, toInt_handleAfter hh (by unfold handleCount at hlt; omega)]
    rfl

/-- The handle whose turn it is after a run, by induction over runs. -/
theorem toInt_nextHandle_after (calls : List TimerCall) :
    (empty.after calls).nextHandle.toInt = turn (made calls) := by
  induction calls using List.reverseRecOn with
  | nil => rfl
  | append_singleton calls c ih =>
    rw [made_append, after_append_singleton]
    cases hmade : (TimerMoment.mk (empty.after calls) c).made? with
    | none =>
      rw [nextHandle_act hmade]
      exact ih
    | some t =>
      rw [(act_of_made? hmade).2]
      exact toInt_handleAfter_of_turn ih

theorem nextHandle_after_pos (calls : List TimerCall) : 0 < (empty.after calls).nextHandle := by
  rw [Int32.lt_iff_toInt_lt, toInt_nextHandle_after, Int32.toInt_zero, turn]
  omega

/-! ### What is pending -/

/-- What is pending after a call was pending before or is the timer it has made. -/
theorem isPending_act (hs : q.Sound) (hp : (q.act c).isPending h = true) :
    q.isPending h = true ∨ ∃ t, (TimerMoment.mk q c).made? = some t ∧ t.handle = h := by
  obtain ⟨t, hmade, hhandle, hact⟩ | ⟨-, ⟨handle, rfl⟩ | ⟨now, rfl⟩ | ⟨htimers, -⟩⟩ := q.act_cases c
  · by_cases hh : q.nextHandle = h
    · exact .inr ⟨t, hmade, hhandle.trans hh⟩
    · rw [isPending_eq, hact, pending?_schedule, if_neg hh] at hp
      exact .inl (by rwa [isPending_eq])
  · rw [isPending_eq, act, pending?_cancel] at hp
    split at hp
    · exact absurd hp (by simp)
    · exact .inl (by rwa [isPending_eq])
  · cases ht : q.nextDue? now with
    | none =>
      rw [act, takeDue_of_none ht] at hp
      exact .inl hp
    | some t =>
      by_cases hh : t.handle = h
      · refine .inl ?_
        rw [isPending_eq, ← hh, hs.pending?_of_nextDue? ht]
        rfl
      · rw [isPending_eq, act, pending?_takeDue_of_ne ht hh] at hp
        exact .inl (by rwa [isPending_eq])
  · rw [isPending, htimers] at hp
    exact .inl hp

theorem sound_after (calls : List TimerCall) : (empty.after calls).Sound := by
  induction calls using List.reverseRecOn with
  | nil => exact sound_empty
  | append_singleton calls c ih =>
    rw [after_append_singleton]
    exact ih.act c

/-- Before the handles start again, those that are pending are at most the number of timers that
have been made, by induction over runs. -/
theorem toInt_le_of_pending (calls : List TimerCall) : made calls < handleCount → ∀ h,
    (empty.after calls).isPending h = true → h.toInt ≤ made calls := by
  induction calls using List.reverseRecOn with
  | nil => exact fun _ h hp => absurd hp (by simp [after, isPending, empty])
  | append_singleton calls c ih =>
    intro hcount h hp
    rw [made_append] at hcount ⊢
    rw [after_append_singleton] at hp
    obtain hold | ⟨t, hmade, rfl⟩ := isPending_act (sound_after calls) hp
    · have := ih (by omega) h hold
      omega
    · rw [hmade, Option.toList_some, List.length_singleton] at hcount ⊢
      rw [(act_of_made? hmade).1, toInt_nextHandle_after, turn_of_lt (by omega)]

/-- No handle is handed out twice before they start again. -/
theorem not_pending_nextHandle (hcount : made calls < handleCount) :
    (empty.after calls).isPending (empty.after calls).nextHandle = false := by
  refine Bool.eq_false_iff.mpr fun hp => ?_
  have hle := toInt_le_of_pending calls hcount _ hp
  rw [toInt_nextHandle_after, turn_of_lt hcount] at hle
  omega

/-! ### Fresh handles -/

/-- From one queue to the next a timer has been made under a fresh handle: one that is positive
and that no pending timer has; and every timer that was pending is pending as it was, so there is
one more. -/
structure Fresh (q q' : TimerQueue) (h : Int32) : Prop where
  positive : 0 < h
  unused : ∀ t ∈ q.timers, t.handle ≠ h
  kept : ∀ t ∈ q.timers, t ∈ q'.timers
  one_more : q'.timers.length = q.timers.length + 1

theorem length_insert (hs : ts.Pairwise (·.handle < ·.handle)) :
    (insert t ts).length
      = if ∃ u ∈ ts, u.handle = t.handle then ts.length else ts.length + 1 := by
  induction ts with
  | nil => simp [insert]
  | cons v rest ih =>
    obtain ⟨hv, hrest⟩ := List.pairwise_cons.mp hs
    unfold insert
    split
    -- what comes later has a greater handle
    · rename_i htv
      have hnone : ¬ ∃ u ∈ v :: rest, u.handle = t.handle := by
        rintro ⟨u, hu, heq⟩
        rcases List.mem_cons.mp hu with rfl | hu
        · exact Int32.lt_irrefl (heq ▸ htv)
        · exact Int32.lt_irrefl (heq ▸ Int32.lt_trans htv (hv u hu))
      rw [if_neg hnone]
      rfl
    · split
      · rename_i heq
        rw [if_pos ⟨v, List.mem_cons_self, heq.symm⟩]
        rfl
      · rename_i hne
        have hiff : (∃ u ∈ v :: rest, u.handle = t.handle) ↔ ∃ u ∈ rest, u.handle = t.handle := by
          simp [Ne.symm hne]
        rw [List.length_cons, ih hrest, List.length_cons]
        simp only [hiff]
        split
        · rfl
        · rfl

/-- Every timer but the one with the handle whose turn it is stays as it is. -/
theorem Sound.mem_schedule (hs : q.Sound) (ht : t ∈ q.timers) (hne : t.handle ≠ q.nextHandle)
    (due : ℕ) (period : Option ℕ) (callback : Int32) :
    t ∈ (q.schedule due period callback).2.timers := by
  have hpending : (q.schedule due period callback).2.pending? t.handle = some t := by
    rw [pending?_schedule, if_neg (Ne.symm hne)]
    exact hs.pending?_eq_some_iff.mpr ⟨ht, rfl⟩
  exact ((hs.schedule due period callback).pending?_eq_some_iff.mp hpending).1

/-- A handle is fresh exactly if nothing is pending under it. -/
theorem Sound.fresh_schedule_iff (hs : q.Sound) (hpos : 0 < q.nextHandle) (due : ℕ)
    (period : Option ℕ) (callback : Int32) :
    Fresh q (q.schedule due period callback).2 q.nextHandle
      ↔ q.isPending q.nextHandle = false := by
  have hunused : q.isPending q.nextHandle = false ↔ ∀ t ∈ q.timers, t.handle ≠ q.nextHandle := by
    simp [isPending]
  rw [hunused]
  refine ⟨Fresh.unused, fun hfree => ⟨hpos, hfree, fun t ht => ?_, ?_⟩⟩
  · exact hs.mem_schedule ht (hfree t ht) due period callback
  · have hnone : ¬ ∃ u ∈ q.timers, u.handle = q.nextHandle := by
      rintro ⟨u, hu, heq⟩
      exact hfree u hu heq
    exact (length_insert hs).trans (if_neg hnone)

theorem Sound.length_schedule_of_pending (hs : q.Sound) (hp : q.isPending q.nextHandle = true)
    (due : ℕ) (period : Option ℕ) (callback : Int32) :
    (q.schedule due period callback).2.timers.length = q.timers.length := by
  have hsome : ∃ u ∈ q.timers, u.handle = q.nextHandle := by simpa [isPending] using hp
  exact (length_insert hs).trans (if_pos hsome)

theorem later?_eq_none_iff {duration : ℕ} :
    later? now duration = none ↔ latestInstant < now + duration := by
  rw [later?, ite_eq_right_iff, ← not_le]
  simp

theorem addTimeout?_eq_none_iff {delay : ℕ} {callback : Int32} :
    q.addTimeout? now delay callback = none ↔ latestInstant < now + delay := by
  rw [addTimeout?, Option.map_eq_none_iff, later?_eq_none_iff]

theorem addInterval?_eq_none_iff {period : ℕ} {callback : Int32} :
    q.addInterval? now period callback = none
      ↔ latestInstant < now + max period shortestPeriod := by
  rw [addInterval?, Option.map_eq_none_iff, later?_eq_none_iff]

end TimerQueue

open TimerQueue

/-- What it does to make a timer once `n` others have been made. -/
structure TimerMoment.Makes (m : TimerMoment) (t : Timer) (n : ℕ) : Prop where
  /-- The handle that is returned is the one whose turn it is. -/
  handle : t.handle.toInt = turn n
  positive : 0 < t.handle
  fresh_iff : Fresh m.queue (m.queue.act m.call) t.handle ↔ m.queue.isPending t.handle = false
  /-- Handles are fresh as long as they have not started again. -/
  fresh : n < handleCount → Fresh m.queue (m.queue.act m.call) t.handle
  others : ∀ u ∈ m.queue.timers, u.handle ≠ t.handle → u ∈ (m.queue.act m.call).timers
  /-- What was pending under the handle is replaced. -/
  replaced : m.queue.isPending t.handle = true →
    (m.queue.act m.call).pending? t.handle = some t ∧
      (m.queue.act m.call).timers.length = m.queue.timers.length

/-- After every run a handle is returned exactly if the instant can be formed, and it is the next
one in turn, which is positive.  It is fresh exactly if nothing is pending under it, and then all
pending timers stay as they are; otherwise the timer there, and no other, is replaced.  So every
handle is fresh until `handleCount` timers have been made. -/
theorem handle_fresh_iff (calls : List TimerCall) :
    (∀ now delay callback, (empty.after calls).addTimeout? now delay callback = none
      ↔ latestInstant < now + delay) ∧
    (∀ now period callback, (empty.after calls).addInterval? now period callback = none
      ↔ latestInstant < now + max period shortestPeriod) ∧
    ∀ c t, (TimerMoment.mk (empty.after calls) c).made? = some t →
      (TimerMoment.mk (empty.after calls) c).Makes t (made calls) := by
  refine ⟨fun _ _ _ => addTimeout?_eq_none_iff, fun _ _ _ => addInterval?_eq_none_iff,
    fun c t hmade => ?_⟩
  obtain ⟨hhandle, hact⟩ := act_of_made? hmade
  have hs := sound_after calls
  have hpos := nextHandle_after_pos calls
  have hiff := hs.fresh_schedule_iff hpos t.due t.period t.callback
  constructor
  · rw [hhandle]
    exact toInt_nextHandle_after calls
  · rw [hhandle]
    exact hpos
  · simp only [hact, hhandle]
    exact hiff
  · intro hcount
    simp only [hact, hhandle]
    exact hiff.mpr (not_pending_nextHandle hcount)
  · intro u hu hne
    simp only [hact]
    exact hs.mem_schedule hu (hhandle ▸ hne) t.due t.period t.callback
  · intro hp
    simp only [hact, hhandle] at hp ⊢
    refine ⟨?_, hs.length_schedule_of_pending hp t.due t.period t.callback⟩
    rw [pending?_schedule, if_pos rfl, ← hhandle]

/-- The third timer of a run, made after the second has been cancelled. -/
theorem handle_fresh_iff_third :
    let calls : List TimerCall := [.interval 0 0 7, .timeout 0 5 8, .cancel 2]
    let m : TimerMoment := ⟨empty.after calls, .timeout 0 0 9⟩
    m.made? = some ⟨3, 0, none, 9⟩ ∧ m.Makes ⟨3, 0, none, 9⟩ 2 := by
  have hmade : (TimerMoment.mk (empty.after [.interval 0 0 7, .timeout 0 5 8, .cancel 2])
      (.timeout 0 0 9)).made? = some ⟨3, 0, none, 9⟩ := by decide +kernel
  exact ⟨hmade, (handle_fresh_iff _).2.2 _ _ hmade⟩

/-! ### A handle that is used twice -/

/-- An interval of a millisecond, under the first handle. -/
def firstInterval : Timer := ⟨1, millisecond, some millisecond, 7⟩

/-- The interval is made, and then `n` timeouts, each of which fires at once. -/
def evicting : ℕ → List TimerCall
  | 0 => [.interval 0 millisecond 7]
  | n + 1 => evicting n ++ [.timeout 0 0 8, .takeDue 0]

/-- A timeout that fires at once leaves the interval alone if its handle is another one. -/
theorem timers_timeout_takeDue {q : TimerQueue} (htimers : q.timers = [firstInterval])
    (hnext : 1 < q.nextHandle) :
    ((q.act (.timeout 0 0 8)).act (.takeDue 0)).timers = [firstInterval] := by
  have hlt : ¬ q.nextHandle < 1 := fun h => Int32.lt_irrefl (Int32.lt_trans h hnext)
  have hne : q.nextHandle ≠ 1 := fun h => Int32.lt_irrefl (h ▸ hnext)
  have hmade : (q.act (.timeout 0 0 8)).timers = [firstInterval, ⟨q.nextHandle, 0, none, 8⟩] := by
    show TimerQueue.insert ⟨q.nextHandle, 0, none, 8⟩ q.timers = _
    simp [htimers, TimerQueue.insert, firstInterval, hlt, hne]
  have hdue : (q.act (.timeout 0 0 8)).nextDue? 0 = some ⟨q.nextHandle, 0, none, 8⟩ := by
    rw [nextDue?, hmade]
    rfl
  show ((q.act (.timeout 0 0 8)).takeDue 0).2.timers = _
  rw [takeDue_timeout hdue rfl, cancel, hmade]
  simp [firstInterval, Ne.symm hne]

theorem after_evicting (n : ℕ) : n < handleCount →
    (empty.after (evicting n)).timers = [firstInterval] ∧ made (evicting n) = n + 1 := by
  induction n with
  | zero => exact fun _ => ⟨rfl, rfl⟩
  | succ n ih =>
    intro hn
    obtain ⟨htimers, hmade⟩ := ih (by omega)
    have hnext : 1 < (empty.after (evicting n)).nextHandle := by
      rw [Int32.lt_iff_toInt_lt, toInt_nextHandle_after, hmade, turn_of_lt hn, Int32.toInt_one]
      omega
    have hsplit : evicting (n + 1) = (evicting n ++ [.timeout 0 0 8]) ++ [.takeDue 0] := by
      rw [List.append_assoc]
      rfl
    rw [hsplit]
    constructor
    · rw [after_append_singleton, after_append_singleton]
      exact timers_timeout_takeDue htimers hnext
    · rw [made_append, made_append, hmade]
      rfl

/-- Once all handles have been handed out, a timeout takes the place of the interval under the
first one, and no handle is returned for an instant that cannot be formed. -/
theorem handle_reused :
    (¬ ∀ calls now delay callback r, (empty.after calls).addTimeout? now delay callback = some r →
      Fresh (empty.after calls) r.2 r.1) ∧
    ¬ ∀ calls now delay callback, ((empty.after calls).addTimeout? now delay callback).isSome := by
  constructor
  · intro h
    obtain ⟨n, hn⟩ : ∃ n, n + 1 = handleCount := ⟨handleCount - 1, rfl⟩
    obtain ⟨htimers, hmade⟩ := after_evicting n (by omega)
    -- as many timers as there are handles have been made, so it is the turn of the first again
    have hfirst : (empty.after (evicting n)).nextHandle = 1 := by
      rw [← Int32.toInt_inj, toInt_nextHandle_after, hmade, hn]
      rfl
    have hfresh := h (evicting n) 0 0 8 ((empty.after (evicting n)).schedule 0 none 8) rfl
    exact hfresh.unused firstInterval (by rw [htimers]; exact List.mem_singleton_self _)
      hfirst.symm
  · intro h
    exact absurd (h [] 0 (latestInstant + 1) 8) (by decide +kernel)

end ModuleHost
