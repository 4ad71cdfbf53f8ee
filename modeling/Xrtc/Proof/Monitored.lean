import Xrtc.Base.EventLoop
import Xrtc.Lib.Machine

/-!
# What libev monitors, and the set algebra of the calls

`create_io_event` does not write the event mask, so `events` of a watcher that was never started is
whatever was in its memory.
-/

namespace Xrtc.Proof.Monitored
open Base Lib

def interest (set : Mask) : IoCall → Mask
  | .startIoEvent mask => set.union mask
  | .stopIoEvent mask => set.diff mask

/-- A stop that starts: libev keeps the mask of a stopped watcher, and `stop_io_event` takes what it
finds there for events that are being monitored. -/
def Revives (w : IOWatcher) : IoCall → Prop
  | .startIoEvent _ => False
  | .stopIoEvent mask => w.active = false ∧ w.events = Mask.READ.union Mask.WRITE ∧
      (mask = Mask.READ ∨ mask = Mask.WRITE)

theorem monitored_active {w : IOWatcher} (active : w.active = true) : w.monitored = w.events := by
  rw [IOWatcher.monitored, if_pos active]

theorem monitored_inactive {w : IOWatcher} (inactive : w.active = false) : w.monitored = Mask.empty := by
  rw [IOWatcher.monitored, inactive]
  rfl

theorem empty_diff (mask : Mask) : Mask.empty.diff mask = Mask.empty := rfl

theorem monitored_start (w : IOWatcher) (fd : Int) (mask : Mask) :
    (w.start fd mask).monitored = w.monitored.union mask := by
  unfold IOWatcher.start
  cases active : w.active with
  | false =>
      rw [monitored_inactive active]
      rfl
  | true =>
      rw [monitored_active active, if_pos rfl]
      dsimp only
      split
      · next same => rw [monitored_active active, same]
      · rfl

theorem monitored_stop_active {w : IOWatcher} (active : w.active = true) (fd : Int) (mask : Mask) :
    (w.stop fd mask).monitored = w.monitored.diff mask := by
  rw [monitored_active active]
  unfold IOWatcher.stop
  dsimp only
  split
  · next same => rw [monitored_active active, same]
  · split
    · next none_left => exact none_left.symm
    · rfl

theorem diff_proper_iff (events mask : Mask) :
    events.diff mask ≠ events ∧ events.diff mask ≠ Mask.empty ↔
      events = Mask.READ.union Mask.WRITE ∧ (mask = Mask.READ ∨ mask = Mask.WRITE) := by
  obtain ⟨read, write⟩ := events
  obtain ⟨read', write'⟩ := mask
  revert read write read' write'
  decide

theorem monitored_stop_inactive {w : IOWatcher} (inactive : w.active = false) (fd : Int) (mask : Mask) :
    (w.stop fd mask).monitored = Mask.empty ↔
      ¬ (w.events.diff mask ≠ w.events ∧ w.events.diff mask ≠ Mask.empty) := by
  unfold IOWatcher.stop
  dsimp only
  split
  · next same => simp [monitored_inactive inactive, same]
  · next changed =>
      split
      · next none_left => simp [monitored_inactive, none_left]
      · next some_left => simp [monitored_active, changed, some_left]

theorem call_agrees_iff (fd : Int) (w : IOWatcher) (call : IoCall) :
    (w.call fd call).monitored = interest w.monitored call ↔ ¬ Revives w call := by
  cases call with
  | startIoEvent mask => exact iff_of_true (monitored_start w fd mask) not_false
  | stopIoEvent mask =>
      cases active : w.active with
      | true =>
          refine iff_of_true (monitored_stop_active active fd mask) fun revives => ?_
          cases active.symm.trans revives.1
      | false =>
          have left := monitored_stop_inactive active fd mask
          rw [diff_proper_iff] at left
          simp only [interest, monitored_inactive active, empty_diff, Revives, active, true_and]
          exact left

/-- Whatever state a watcher is in and however it is called from there: what libev monitors is the fold
of the calls after each of them, exactly when no call is a stop of one event that meets a stopped
watcher with both events left in its mask. -/
theorem monitored_fold_iff (w : IOWatcher) (fd : Int) (calls : List IoCall) :
    (∀ done, done <+: calls →
      (done.foldl (IOWatcher.call fd) w).monitored = done.foldl interest w.monitored) ↔
    ∀ done call, done ++ [call] <+: calls → ¬ Revives (done.foldl (IOWatcher.call fd) w) call :=
  view_foldl_iff (call_agrees_iff fd) w calls

/-- A watcher that was created, started for both events, stopped for both and stopped for one. -/
theorem stop_revives :
    ∃ (w : IOWatcher) (fd : Int) (calls : List IoCall), w.active = false ∧
      calls = [.startIoEvent (Mask.READ.union Mask.WRITE), .stopIoEvent (Mask.READ.union Mask.WRITE),
        .stopIoEvent Mask.READ] ∧
      calls.foldl interest w.monitored = Mask.empty ∧
      (calls.foldl (IOWatcher.call fd) w).monitored = Mask.WRITE :=
  ⟨⟨-1, Mask.empty, false⟩, 5, _, rfl, rfl, by decide, by decide⟩

end Xrtc.Proof.Monitored
