import RobotJointStack.Board.Display
import RobotJointStack.Lib.Machine

/-!
# Board.DisplayDma

The display task, the DMA transfer and the semaphore `s_done` between them. The task works through
the operations of its call; in `spi_write_dma` it waits for the token that either SPI callback
gives, and aborts the transfer when the wait times out. A callback can come between the timeout and
the abort. Its token then stays behind, and the next write takes it for its own.

* `sound_act`: the token and the transfer, where every transfer starts with `s_done` empty.
* `startsEmpty_of_promptAbort`: that is so unless a callback comes between a timeout and its abort.
* `buffer_respected`: then `s_chunk` and chip select are left alone while the DMA works; a transfer
  that starts beside an old token may be left running.
-/

namespace Rjs

open Machine

/-- Where the display task is: outside `spi_write_dma`, at its `xSemaphoreTake`, or past one that
has timed out and not yet at `HAL_SPI_Abort`. -/
inductive DmaPc where
  | outside
  | taking
  | timedOut
deriving DecidableEq, Repr

/-- The display task, its pins and buffer, the transfer and the token of `s_done`. -/
structure DisplayTask where
  ready : Bool
  ops : List DisplayOp
  pc : DmaPc
  chunk : List UInt8
  csLow : Bool
  dcData : Bool
  inFlight : Bool
  done : Bool
deriving DecidableEq, Repr

inductive DisplayEvent where
  | blit (x y w h : UInt16) (pixels : Pixels)
  | fill (x y w h color : UInt16)
  /-- An operation other than `spi_write_dma`. -/
  | op
  /-- `HAL_SPI_Transmit_DMA` returns `HAL_OK`. -/
  | start
  /-- It returns anything else. -/
  | refuse
  | take
  | timeOut
  | abort
  | complete
  | error

namespace DisplayTask

/-- The task before its first call. -/
def init (ready : Bool) : DisplayTask where
  ready := ready
  ops := []
  pc := .outside
  chunk := List.replicate chunkBytes 0
  csLow := false
  dcData := true
  inFlight := false
  done := false

def call (t : DisplayTask) (ops : List DisplayOp) : Option DisplayTask :=
  if t.pc = .outside ∧ t.ops = [] then some { t with ops := ops } else none

def perform (t : DisplayTask) : Option DisplayTask :=
  match t.pc, t.ops with
  | .outside, .cs low :: ops => some { t with ops := ops, csLow := low }
  | .outside, .dc data :: ops => some { t with ops := ops, dcData := data }
  | .outside, .writeBlocking _ :: ops => some { t with ops := ops }
  | .outside, .store i byte :: ops => some { t with ops := ops, chunk := t.chunk.set i byte }
  | _, _ => none

/-- `HAL_SPI_Transmit_DMA`: only an idle peripheral starts a transfer. -/
def transmitDma (t : DisplayTask) (ok : Bool) : Option DisplayTask :=
  match t.pc, t.ops with
  | .outside, .writeDma _ :: ops =>
    if ok then
      if t.inFlight then none else some { t with ops := ops, pc := .taking, inFlight := true }
    else some { t with ops := ops }
  | _, _ => none

/-- `HAL_SPI_TxCpltCallback` and `HAL_SPI_ErrorCallback`, at the end of a transfer. -/
def callback (t : DisplayTask) : Option DisplayTask :=
  if t.inFlight then some { t with inFlight := false, done := true } else none

def act (t : DisplayTask) : DisplayEvent → Option DisplayTask
  | .blit x y w h pixels => t.call (boardDisplayBlit t.ready x y w h pixels)
  | .fill x y w h color => t.call (boardDisplayFill t.ready x y w h color)
  | .op => t.perform
  | .start => t.transmitDma true
  | .refuse => t.transmitDma false
  | .take => if t.pc = .taking ∧ t.done then some { t with pc := .outside, done := false } else none
  | .timeOut => if t.pc = .taking ∧ ¬t.done then some { t with pc := .timedOut } else none
  | .abort =>
    if t.pc = .timedOut then some { t with pc := .outside, inFlight := false } else none
  | .complete => t.callback
  | .error => t.callback

/-- The next operation writes `s_chunk` or releases chip select. -/
def disturbs (t : DisplayTask) : Bool :=
  match t.ops with
  | .store _ _ :: _ => true
  | .cs false :: _ => true
  | _ => false

/-- A step that leaves `s_chunk` and chip select to a transfer in flight, and leaves `spi_write_dma`
only when the transfer it has started is over. -/
def Respects (t : DisplayTask) (e : DisplayEvent) (t' : DisplayTask) : Prop :=
  match e with
  | .op => t.inFlight = true → t.disturbs = false
  | .take => t'.inFlight = false
  | .abort => t'.inFlight = false
  | _ => True

/-- A step that starts a transfer only with no token in `s_done`. -/
def StartsEmpty (t : DisplayTask) (e : DisplayEvent) (_ : DisplayTask) : Prop :=
  match e with
  | .start => t.done = false
  | _ => True

/-- A step that is not a callback between a timeout and its abort. -/
def PromptAbort (t : DisplayTask) (e : DisplayEvent) (_ : DisplayTask) : Prop :=
  match e with
  | .complete => t.pc ≠ .timedOut
  | .error => t.pc ≠ .timedOut
  | _ => True

instance (t : DisplayTask) (e : DisplayEvent) (t' : DisplayTask) : Decidable (t.Respects e t') := by
  cases e <;> unfold Respects <;> infer_instance

instance (t : DisplayTask) (e : DisplayEvent) (t' : DisplayTask) :
    Decidable (t.StartsEmpty e t') := by
  cases e <;> unfold StartsEmpty <;> infer_instance

/-- Outside `spi_write_dma` nothing is in flight; inside, a transfer is in flight until its token is
there. -/
def Sound (t : DisplayTask) : Prop :=
  match t.pc with
  | .outside => t.inFlight = false
  | .taking => t.inFlight = !t.done
  | .timedOut => t.inFlight = !t.done

/-! ## One event -/

section Events

variable {t t' : DisplayTask}

theorem sound_init (ready : Bool) : (init ready).Sound := rfl

theorem call_cases {ops : List DisplayOp} (h : t.call ops = some t') :
    t.pc = .outside ∧ t' = { t with ops := ops } := by
  unfold call at h
  split at h
  · rename_i hout
    exact ⟨hout.1, (Option.some.inj h).symm⟩
  · cases h

/-- An operation moves neither the transfer nor the token. -/
theorem perform_cases (h : t.perform = some t') :
    t.pc = .outside ∧ t'.pc = .outside ∧ t'.inFlight = t.inFlight ∧ t'.done = t.done := by
  unfold perform at h
  split at h
  all_goals cases h
  all_goals exact ⟨‹_›, ‹_›, rfl, rfl⟩

theorem transmitDma_cases {ok : Bool} (h : t.transmitDma ok = some t') :
    t.pc = .outside ∧ t'.done = t.done ∧
      (ok = true ∧ t'.pc = .taking ∧ t'.inFlight = true ∨
        ok = false ∧ t'.pc = .outside ∧ t'.inFlight = t.inFlight) := by
  unfold transmitDma at h
  split at h
  · rename_i hpc hops
    split at h
    · split at h
      · cases h
      · cases h
        exact ⟨hpc, rfl, .inl ⟨‹_›, rfl, rfl⟩⟩
    · cases h
      exact ⟨hpc, rfl, .inr ⟨Bool.eq_false_iff.mpr ‹_›, hpc, rfl⟩⟩
  · cases h

theorem callback_cases (h : t.callback = some t') :
    t.inFlight = true ∧ t' = { t with inFlight := false, done := true } := by
  unfold callback at h
  split at h
  · exact ⟨‹_›, (Option.some.inj h).symm⟩
  · cases h

theorem take_cases (h : t.act .take = some t') :
    t.pc = .taking ∧ t.done = true ∧ t' = { t with pc := .outside, done := false } := by
  simp only [act] at h
  split at h
  · rename_i htake
    exact ⟨htake.1, htake.2, (Option.some.inj h).symm⟩
  · cases h

theorem timeOut_cases (h : t.act .timeOut = some t') :
    t.pc = .taking ∧ t.done = false ∧ t' = { t with pc := .timedOut } := by
  simp only [act] at h
  split at h
  · rename_i htake
    exact ⟨htake.1, Bool.eq_false_iff.mpr htake.2, (Option.some.inj h).symm⟩
  · cases h

theorem abort_cases (h : t.act .abort = some t') :
    t.pc = .timedOut ∧ t' = { t with pc := .outside, inFlight := false } := by
  simp only [act] at h
  split at h
  · exact ⟨‹_›, (Option.some.inj h).symm⟩
  · cases h

theorem sound_callback (h : t.callback = some t') : t'.Sound := by
  obtain ⟨-, rfl⟩ := callback_cases h
  unfold Sound
  split <;> rfl

theorem sound_act (hs : t.Sound) {e : DisplayEvent} (he : t.StartsEmpty e t')
    (h : t.act e = some t') : t'.Sound := by
  cases e with
  | blit x y w h pixels =>
    obtain ⟨-, rfl⟩ := call_cases h
    exact hs
  | fill x y w h color =>
    obtain ⟨-, rfl⟩ := call_cases h
    exact hs
  | op =>
    obtain ⟨hpc, hpc', hflight, -⟩ := perform_cases h
    simp only [Sound, hpc, hpc'] at hs ⊢
    rw [hflight, hs]
  | start =>
    obtain ⟨-, hdone, ⟨-, hpc, hflight⟩ | ⟨hok, -⟩⟩ := transmitDma_cases h
    · simp only [Sound, hpc]
      rw [hflight, hdone, he]
      rfl
    · cases hok
  | refuse =>
    obtain ⟨hpc, -, ⟨hok, -⟩ | ⟨-, hpc', hflight⟩⟩ := transmitDma_cases h
    · cases hok
    · simp only [Sound, hpc, hpc'] at hs ⊢
      rw [hflight, hs]
  | take =>
    obtain ⟨hpc, hdone, rfl⟩ := take_cases h
    simp only [Sound, hpc] at hs ⊢
    rw [hs, hdone]
    rfl
  | timeOut =>
    obtain ⟨hpc, -, rfl⟩ := timeOut_cases h
    simp only [Sound, hpc] at hs ⊢
    exact hs
  | abort =>
    obtain ⟨-, rfl⟩ := abort_cases h
    rfl
  | complete => exact sound_callback h
  | error => exact sound_callback h

theorem respects_of_sound (hs : t.Sound) {e : DisplayEvent} (h : t.act e = some t')
    (hs' : t'.Sound) : t.Respects e t' := by
  cases e with
  | op =>
    obtain ⟨hpc, -⟩ := perform_cases h
    simp only [Sound, hpc] at hs
    exact fun hflight => absurd hflight (Bool.eq_false_iff.mp hs)
  | take =>
    obtain ⟨-, -, rfl⟩ := take_cases h
    exact hs'
  | abort =>
    obtain ⟨-, rfl⟩ := abort_cases h
    rfl
  | _ => trivial

/-- Beside an old token a transfer can be left as soon as it has started. -/
theorem not_respects_of_token (hdone : t.done = true) (h : t.act .start = some t') :
    ¬Throughout act Respects t [.start, .take] := by
  obtain ⟨-, hdone', ⟨-, hpc, hflight⟩ | ⟨hok, -⟩⟩ := transmitDma_cases h
  · have htake : t'.act .take = some { t' with pc := .outside, done := false } :=
      if_pos ⟨hpc, hdone'.trans hdone⟩
    intro hall
    obtain ⟨-, hrest⟩ := hall t' h
    obtain ⟨hleft, -⟩ := hrest _ htake
    exact absurd hflight (Bool.eq_false_iff.mp hleft)
  · cases hok

end Events

/-! ## Prompt aborts -/

/-- What is `Sound`, with no token outside `spi_write_dma` and none past a timeout. -/
def Clean (t : DisplayTask) : Prop :=
  match t.pc with
  | .outside => t.inFlight = false ∧ t.done = false
  | .taking => t.inFlight = !t.done
  | .timedOut => t.done = false

section Events

variable {t t' : DisplayTask}

theorem clean_callback (hc : t.Clean) (hpc : t.pc ≠ .timedOut) (h : t.callback = some t') :
    t'.Clean := by
  obtain ⟨hflight, rfl⟩ := callback_cases h
  unfold Clean at hc ⊢
  cases hp : t.pc with
  | outside =>
    rw [hp] at hc
    rw [hc.1] at hflight
    cases hflight
  | taking => rfl
  | timedOut => exact absurd hp hpc

theorem clean_act (hc : t.Clean) {e : DisplayEvent} (he : t.PromptAbort e t')
    (h : t.act e = some t') : t'.Clean := by
  cases e with
  | blit x y w h pixels =>
    obtain ⟨-, rfl⟩ := call_cases h
    exact hc
  | fill x y w h color =>
    obtain ⟨-, rfl⟩ := call_cases h
    exact hc
  | op =>
    obtain ⟨hpc, hpc', hflight, hdone⟩ := perform_cases h
    simp only [Clean, hpc, hpc'] at hc ⊢
    rw [hflight, hdone]
    exact hc
  | start =>
    obtain ⟨hout, hdone, ⟨-, hpc, hflight⟩ | ⟨hok, -⟩⟩ := transmitDma_cases h
    · simp only [Clean, hout, hpc] at hc ⊢
      rw [hflight, hdone, hc.2]
      rfl
    · cases hok
  | refuse =>
    obtain ⟨hpc, hdone, ⟨hok, -⟩ | ⟨-, hpc', hflight⟩⟩ := transmitDma_cases h
    · cases hok
    · simp only [Clean, hpc, hpc'] at hc ⊢
      rw [hflight, hdone]
      exact hc
  | take =>
    obtain ⟨hpc, hdone, rfl⟩ := take_cases h
    simp only [Clean, hpc] at hc ⊢
    rw [hc, hdone]
    exact ⟨rfl, trivial⟩
  | timeOut =>
    obtain ⟨-, hdone, rfl⟩ := timeOut_cases h
    exact hdone
  | abort =>
    obtain ⟨hpc, rfl⟩ := abort_cases h
    simp only [Clean, hpc] at hc
    exact ⟨rfl, hc⟩
  | complete => exact clean_callback hc he h
  | error => exact clean_callback hc he h

theorem startsEmpty_of_clean (hc : t.Clean) {e : DisplayEvent} (h : t.act e = some t') :
    t.StartsEmpty e t' := by
  cases e with
  | start =>
    obtain ⟨hpc, -⟩ := transmitDma_cases h
    simp only [Clean, hpc] at hc
    exact hc.2
  | _ => trivial

end Events

/-- An old token comes from a callback between a timeout and its abort, and from nothing else. -/
theorem startsEmpty_of_promptAbort (ready : Bool) {events : List DisplayEvent}
    (h : Throughout act PromptAbort (init ready) events) :
    Throughout act StartsEmpty (init ready) events :=
  h.imp_of_inv (fun _ _ _ hc he hact => ⟨clean_act hc he hact, startsEmpty_of_clean hc hact⟩)
    (⟨rfl, rfl⟩ : (init ready).Clean)

/-! ## Runs -/

/-- **The pixel buffer while the DMA reads it.** In a run in which no transfer starts beside an old
token, `s_chunk` and chip select are left alone while a transfer is in flight, and `spi_write_dma`
is left only when its transfer is over. Where one does start beside an old token, the run can go on
so that this fails. -/
theorem buffer_respected (ready : Bool) :
    (∀ events, Throughout act StartsEmpty (init ready) events →
      Throughout act Respects (init ready) events) ∧
    ∀ events t t', run act (init ready) events = some t → t.act .start = some t' →
      ¬t.StartsEmpty .start t' →
      ¬Throughout act Respects (init ready) (events ++ [.start, .take]) := by
  constructor
  · intro events h
    refine h.imp_of_inv (fun t e t' hs he hact => ?_) (sound_init ready)
    have hs' := sound_act hs he hact
    exact ⟨hs', respects_of_sound hs hact hs'⟩
  · intro events t t' hrun hstart htoken hall
    have hdone : t.done = true := Bool.not_eq_false _ ▸ htoken
    exact not_respects_of_token hdone hstart ((throughout_append.mp hall).2 t hrun)

/-- A blit of one pixel up to its transfer: the window, chip select and the pixel. -/
def toTransfer : List DisplayEvent :=
  .blit 0 0 1 1 (fun _ => 0xFFFF) :: List.replicate 24 .op

/-- A transfer that times out and is aborted in time, and one that completes. -/
theorem buffer_respected_aborted :
    Throughout act Respects (init true)
      (toTransfer ++ [.start, .timeOut, .abort, .op] ++ toTransfer ++
        [.start, .complete, .take, .op]) :=
  (buffer_respected true).1 _ (by decide +kernel)

/-- The callback of the first transfer comes between its timeout and its abort; the second transfer
is left at once, and chip select released under it. -/
theorem not_respects_late :
    ¬Throughout act Respects (init true)
      (toTransfer ++ [.start, .timeOut, .complete, .abort, .op] ++ toTransfer ++
        [.start, .take, .op]) := by
  decide +kernel

end DisplayTask

end Rjs
