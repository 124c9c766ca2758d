import RobotJointStack.Monitor.Run

/-!
# Monitor.Callback

Monitors that differ in their callbacks. The callbacks never reach the table, so two such monitors
keep the same one, and keep every relation between their callers' states that the callbacks keep.

* `alike_onHeartbeat`, `alike_poll`: so does each operation.
* `runWith_eq`: any callback is told exactly what the recording one writes down.
-/

namespace Rjs
namespace Monitor

open WrapClock

variable {σ τ : Type}

/-- Two monitors with one table, whose callbacks keep `R` between their states. -/
structure Alike (R : σ → τ → Prop) (m : Monitor σ) (m' : Monitor τ) : Prop where
  peers : m.peers = m'.peers
  timeoutMs : m.timeoutMs = m'.timeoutMs
  keeps : ∀ ev p user user', R user user' → R (notify m.cb ev p user) (notify m'.cb ev p user')
  user : R m.user m'.user

section Alike

variable {R : σ → τ → Prop} {m : Monitor σ} {m' : Monitor τ} (h : Alike R m m')
include h

theorem Alike.find (n : UInt8) : m.find n = m'.find n := by
  rw [Monitor.find, h.peers, Monitor.find]

theorem Alike.entry (n : UInt8) : m.entry n = m'.entry n := by
  rw [Monitor.entry, h.find, Monitor.entry]

theorem Alike.accepts (n : UInt8) : m.Accepts n ↔ m'.Accepts n := by
  rw [Accepts, h.find, h.peers, Accepts]

theorem alike_onHeartbeat (node : UInt8) (hb : Heartbeat) (nowMs : UInt32) :
    (m.onHeartbeat node (some hb) nowMs).1 = (m'.onHeartbeat node (some hb) nowMs).1 ∧
      Alike R (m.onHeartbeat node (some hb) nowMs).2 (m'.onHeartbeat node (some hb) nowMs).2 := by
  by_cases hacc : m.Accepts node
  · have hacc' : m'.Accepts node := (h.accepts node).mp hacc
    rw [onHeartbeat_accepted hb nowMs hacc, onHeartbeat_accepted hb nowMs hacc', h.entry, h.peers]
    exact ⟨rfl, rfl, h.timeoutMs, h.keeps, h.keeps _ _ _ _ h.user⟩
  · have hacc' : ¬m'.Accepts node := fun hacc' => hacc ((h.accepts node).mpr hacc')
    rw [onHeartbeat_refused hb nowMs hacc, onHeartbeat_refused hb nowMs hacc']
    exact ⟨rfl, h⟩

theorem alike_poll (nowMs : UInt32) : Alike R (m.poll nowMs) (m'.poll nowMs) := by
  rw [poll_eq, poll_eq, h.peers, h.timeoutMs]
  refine ⟨rfl, rfl, h.keeps, ?_⟩
  dsimp only
  have huser := h.user
  generalize m.user = user at huser
  generalize m'.user = user' at huser
  induction m'.peers.filter (·.Expired m'.timeoutMs nowMs) generalizing user user' with
  | nil => exact huser
  | cons p ps ih => exact ih _ _ (h.keeps _ _ _ _ huser)

end Alike

/-! ## Runs with any callback -/

def actWith (m : Monitor σ) : MonitorOp → Monitor σ
  | .heartbeat node hb time => (m.onHeartbeat node (some hb) (wrap time)).2
  | .poll time => m.poll (wrap time)

def runWith (timeoutMs : UInt32) (cb : Option (MonitorCb σ)) (user : σ) (ops : List MonitorOp) :
    Monitor σ :=
  ops.foldl actWith (init timeoutMs cb user)

theorem runWith_snoc (timeoutMs : UInt32) (cb : Option (MonitorCb σ)) (user : σ)
    (ops : List MonitorOp) (op : MonitorOp) :
    runWith timeoutMs cb user (ops ++ [op]) = (runWith timeoutMs cb user ops).actWith op := by
  rw [runWith, List.foldl_append]; rfl

/-- What a callback makes of its state when it is told the reports of a trace. -/
def told (cb : Option (MonitorCb σ)) (user : σ) (trace : Trace) : σ :=
  trace.foldl (fun user report => notify cb (some report.1) report.2 user) user

/-- **Callbacks only listen.** A run under any callback keeps the table of the recording run, and
its callback has been told just what that one wrote down. -/
theorem runWith_eq (timeoutMs : UInt32) (cb : Option (MonitorCb σ)) (user : σ)
    (ops : List MonitorOp) :
    (runWith timeoutMs cb user ops).peers = (run timeoutMs ops).peers ∧
      (runWith timeoutMs cb user ops).user = told cb user (run timeoutMs ops).user := by
  have hkeeps : ∀ ev p user' trace, user' = told cb user trace →
      notify cb ev p user' = told cb user (notify (some record) ev p trace) := by
    intro ev p user' trace h
    subst h
    cases ev with
    | none => cases cb <;> rfl
    | some ev => simp [notify, record, told]
  suffices h : Alike (fun user' trace => user' = told cb user trace)
      (runWith timeoutMs cb user ops) (run timeoutMs ops) from ⟨h.peers, h.user⟩
  induction ops using List.reverseRecOn with
  | nil => exact ⟨rfl, rfl, hkeeps, rfl⟩
  | append_singleton ops op ih =>
    rw [run_snoc, runWith_snoc]
    cases op with
    | heartbeat node hb t => exact (alike_onHeartbeat ih node hb (wrap t)).2
    | poll t => exact alike_poll ih (wrap t)

end Monitor
end Rjs
