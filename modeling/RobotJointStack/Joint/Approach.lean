import RobotJointStack.Joint.Arrival
import RobotJointStack.Lib.Approach

/-!
# Joint.Approach

How long a joint takes to its target in the steps of a millisecond that `control_task` makes. A joint
that moves the wrong way brakes first; one that is slower than it wants to be speeds up; from then on
its speed is the commanded one, or the one from which it can just stop at the target, and the next
target velocity is lower still.

* `covers_stride`: at such a speed a step covers what `Lib.Approach` asks for.
* `timeLeft_track`: every step takes one off the time left.
* `arrives_within`: so the joint is on its target in time.
-/

namespace Rjs

/-- Division rounded up. -/
def divUp (x y : Int) : Int := (x + y - 1) / y

theorem le_divUp {x y : Int} (hy : 0 < y) : (x : ℝ) / y ≤ divUp x y := by
  have hle : x ≤ divUp x y * y := by
    have hdiv := Int.lt_ediv_add_one_mul_self (x + y - 1) hy
    rw [add_mul, one_mul] at hdiv
    unfold divUp
    omega
  rw [div_le_iff₀ (by exact_mod_cast hy)]
  exact_mod_cast hle

theorem divUp_mono {x x' y : Int} (hy : 0 < y) (h : x ≤ x') : divUp x y ≤ divUp x' y :=
  Int.ediv_le_ediv hy (by omega)

theorem divUp_nonneg {x y : Int} (hy : 0 < y) (h : 0 ≤ x) : 0 ≤ divUp x y :=
  Int.ediv_nonneg (by omega) hy.le

theorem divUp_pos {x y : Int} (hy : 0 < y) (h : 0 < x) : 1 ≤ divUp x y := by
  rw [divUp, Int.le_ediv_iff_mul_le hy]
  omega

theorem divUp_sub {x y : Int} (hy : 0 < y) : divUp (x - y) y = divUp x y - 1 := by
  have hsub : x - y + y - 1 = x + y - 1 - y := by ring
  rw [divUp, divUp, hsub, Int.sub_ediv_of_dvd _ (dvd_refl y), Int.ediv_self hy.ne']

/-- What a millisecond at the commanded velocity covers; a step never covers less than one unit. -/
def stride (vmax : Int) : Int := max 1 (vmax / 1000)

theorem stride_pos (vmax : Int) : 0 < stride vmax := lt_max_of_lt_left Int.one_pos

namespace Plant

open Slew

variable {p : Plant} {target vmax span : Int} {m : Motion}

/-! ## The speed from which the joint can stop -/

theorem vStop_mono {d d' : Int} (h : d ≤ d') : p.vStop d ≤ p.vStop d' := by
  have hacc := p.acc_pos
  have hle : 2 * p.acc * d ≤ 2 * p.acc * d' := Int.mul_le_mul_of_nonneg_left h (by omega)
  exact Int.ofNat_le.mpr (Nat.sqrt_le_sqrt (Int.toNat_le_toNat hle))

theorem le_vStop {v d : Int} (hv : 0 ≤ v) (h : v * v ≤ 2 * p.acc * d) : v ≤ p.vStop d := by
  have hle : v.toNat * v.toNat ≤ (2 * p.acc * d).toNat := by
    zify
    rw [Int.toNat_of_nonneg hv]
    exact h.trans (Int.self_le_toNat _)
  have hsqrt := Nat.le_sqrt.mpr hle
  unfold vStop
  omega

theorem lt_vStop_succ (d : Int) : 2 * p.acc * d < (p.vStop d + 1) * (p.vStop d + 1) := by
  have hlt := Nat.lt_succ_sqrt (2 * p.acc * d).toNat
  zify at hlt
  exact (Int.self_le_toNat _).trans_lt hlt

theorem vWant_below {x : Int} (h : x < target) :
    p.vWant target vmax x = min vmax (p.vStop (target - x)) := by
  have herr : 0 < target - x := by omega
  rw [vWant, if_pos herr, abs_of_pos herr]

variable (p) in
/-- Twice the deceleration, in units for the square of a millisecond. -/
noncomputable def decel : ℝ := (2 * p.acc : Int) / (1000000 : Int)

variable (p vmax) in
/-- The bound of `Lib.Approach` at the distance `e`, in steps of a millisecond. -/
noncomputable def timeToGo (e : Int) : ℝ := Approach.timeToGo p.decel (stride vmax) e

theorem decel_pos (p : Plant) : 0 < p.decel := by
  have hacc : (0 : ℝ) < (2 * p.acc : Int) := by exact_mod_cast (by have := p.acc_pos; omega)
  exact div_pos hacc (by norm_num)

theorem stride_cast_pos (vmax : Int) : (0 : ℝ) < stride vmax := by exact_mod_cast stride_pos vmax

theorem timeToGo_nonneg (vmax : Int) {e : Int} (he : 0 ≤ e) : 0 ≤ p.timeToGo vmax e :=
  Approach.timeToGo_nonneg p.decel_pos (stride_cast_pos vmax) (by exact_mod_cast he)

theorem timeToGo_mono (vmax : Int) {e e' : Int} (he' : 0 ≤ e') (h : e' ≤ e) :
    p.timeToGo vmax e' ≤ p.timeToGo vmax e :=
  Approach.timeToGo_mono p.decel_pos (stride_cast_pos vmax) (by exact_mod_cast he')
    (by exact_mod_cast h)

/-- A step of at least one unit at the wanted velocity or above it. -/
theorem covers_stride {e v s : Int} (hv : min vmax (p.vStop e) ≤ v) (hone : 1 ≤ s)
    (hs : v / 1000 ≤ s) :
    Approach.Covers p.decel (stride vmax) e s := by
  have hdec : p.decel * e = (2 * p.acc * e : Int) / 1000000 := by
    unfold decel
    push_cast
    ring
  unfold Approach.Covers
  rw [hdec]
  split
  · rename_i hfar
    rw [le_div_iff₀ (by norm_num)] at hfar
    have hfar' : stride vmax ^ 2 * 1000000 ≤ 2 * p.acc * e := by exact_mod_cast hfar
    have hstop : 1000 * stride vmax ≤ p.vStop e :=
      le_vStop (by have := stride_pos vmax; omega) (by nlinarith)
    have hle : stride vmax ≤ s := by
      unfold stride at hstop ⊢
      omega
    exact_mod_cast hle
  · rename_i hnear
    have hs0 : (0 : ℝ) ≤ 2 * s := by exact_mod_cast (by omega : 0 ≤ 2 * s)
    refine Real.sqrt_le_iff.mpr ⟨hs0, ?_⟩
    rw [div_le_iff₀ (by norm_num)]
    suffices h : 2 * p.acc * e ≤ (2 * s) ^ 2 * 1000000 by exact_mod_cast h
    by_cases hcap : vmax ≤ p.vStop e
    · -- at the commanded velocity: near only means that the stride is long enough
      have hle : stride vmax ≤ s := by
        unfold stride
        omega
      rw [not_le, div_lt_iff₀ (by norm_num)] at hnear
      have hnear' : 2 * p.acc * e < stride vmax ^ 2 * 1000000 := by exact_mod_cast hnear
      have hpos := stride_pos vmax
      nlinarith
    · have hlt := p.lt_vStop_succ e
      have hstop := p.vStop_nonneg e
      have hle : p.vStop e + 1 ≤ 2000 * s := by omega
      nlinarith

theorem timeToGo_step {e e' v : Int} (he : 0 < e) (he' : 0 ≤ e') (hv : min vmax (p.vStop e) ≤ v)
    (hone : 1 ≤ e - e') (hs : v / 1000 ≤ e - e') :
    p.timeToGo vmax e' + 1 ≤ p.timeToGo vmax e := by
  have hcover := covers_stride hv hone hs
  push_cast at hcover
  exact Approach.timeToGo_step p.decel_pos (stride_cast_pos vmax) (by exact_mod_cast he)
    (by exact_mod_cast he') hcover (by linarith)

/-! ## One step -/

/-- A step with the velocity toward the target arrives, or covers what its velocity says. -/
theorem track_covers (hp : p.Holds m.pos) (ht : p.Holds target) (h : m.pos < target)
    (hvel : 0 ≤ p.trackVel target vmax 1 m) :
    p.track target vmax 1 m = ⟨target, 0⟩ ∨
      ((p.track target vmax 1 m).vel = p.trackVel target vmax 1 m ∧
        (p.track target vmax 1 m).pos < target ∧
        1 ≤ (p.track target vmax 1 m).pos - m.pos ∧
        p.trackVel target vmax 1 m / 1000 ≤ (p.track target vmax 1 m).pos - m.pos) := by
  have hs := travel_nonneg 1 hvel
  have hway : travel 1 (p.trackVel target vmax 1 m) = p.trackVel target vmax 1 m / 1000 := by
    rw [travel_of_nonneg hvel, Nat.cast_one, mul_one]
  obtain ⟨-, e⟩ | ⟨-, hs0, herr, e⟩ | ⟨ha, hs0, e⟩ := track_cases vmax 1 hp ht
  · exact .inl e
  · rw [abs_of_pos (by omega)] at herr
    rw [e, Int.sign_eq_one_of_pos (by omega)]
    exact .inr ⟨rfl, by dsimp only; omega, by dsimp only; omega, by dsimp only; omega⟩
  · have hshort : travel 1 (p.trackVel target vmax 1 m) < target - m.pos := by
      by_contra hle
      exact ha (.inl ⟨by omega, by omega⟩)
    have hin : p.Holds (m.pos + travel 1 (p.trackVel target vmax 1 m)) :=
      ⟨by have := hp.1; omega, by have := ht.2; omega⟩
    rw [e, clamp_of_holds hin]
    exact .inr ⟨rfl, by dsimp only; omega, by dsimp only; omega, by dsimp only; omega⟩

/-- The velocity points to the target. -/
def Toward (target : Int) (m : Motion) : Prop :=
  (m.pos < target ∧ 0 ≤ m.vel) ∨ (target < m.pos ∧ m.vel ≤ 0)

instance (target : Int) (m : Motion) : Decidable (Toward target m) :=
  inferInstanceAs (Decidable (_ ∨ _))

variable (p) in
/-- The steps in which the acceleration changes the velocity by `v`. -/
def rampSteps (v : Int) : Int := divUp v (p.dvMax 1)

theorem rampSteps_mono {v v' : Int} (h : v ≤ v') : p.rampSteps v ≤ p.rampSteps v' :=
  divUp_mono (p.dvMax_pos 1) h

theorem rampSteps_nonneg {v : Int} (h : 0 ≤ v) : 0 ≤ p.rampSteps v :=
  divUp_nonneg (p.dvMax_pos 1) h

theorem rampSteps_pos {v : Int} (h : 0 < v) : 1 ≤ p.rampSteps v := divUp_pos (p.dvMax_pos 1) h

theorem rampSteps_sub (v : Int) : p.rampSteps (v - p.dvMax 1) = p.rampSteps v - 1 :=
  divUp_sub (p.dvMax_pos 1)

variable (p) in
/-- The same for a velocity toward the target, as long as it is below the wanted one. -/
def rampLeft (vmax want v : Int) : Int := if want ≤ v then 0 else p.rampSteps (vmax - v)

theorem rampLeft_le {want v : Int} (hv : 0 ≤ vmax) (hm : 0 ≤ v) :
    p.rampLeft vmax want v ≤ p.rampSteps vmax := by
  unfold rampLeft
  split
  · exact rampSteps_nonneg hv
  · exact rampSteps_mono (by omega)

variable (p) in
/-- A bound on the steps until the joint is at rest on the target, if it is never further than
`span` away from it. -/
noncomputable def timeLeft (target vmax span : Int) (m : Motion) : ℝ :=
  if m = ⟨target, 0⟩ then 0
  else if Toward target m then
    p.rampLeft vmax |p.vWant target vmax m.pos| |m.vel| + p.timeToGo vmax |target - m.pos|
  else p.rampSteps |m.vel| + p.rampSteps vmax + p.timeToGo vmax span

theorem timeLeft_rest : p.timeLeft target vmax span ⟨target, 0⟩ = 0 := if_pos rfl

theorem timeLeft_mirror (hv : 0 ≤ vmax) :
    p.mirror.timeLeft (-target) vmax span m.mirror = p.timeLeft target vmax span m := by
  have hrest : m.mirror = ⟨-target, 0⟩ ↔ m = ⟨target, 0⟩ := by
    obtain ⟨x, v⟩ := m
    simp only [Motion.mirror, Motion.mk.injEq]
    omega
  have hdist : |-target - m.mirror.pos| = |target - m.pos| := by
    rw [← abs_neg]; congr 1; simp only [Motion.mirror]; ring
  have hdir : Toward (-target) m.mirror ↔ Toward target m := by
    simp only [Toward, Motion.mirror]; omega
  have hwant : |p.mirror.vWant (-target) vmax m.mirror.pos| = |p.vWant target vmax m.pos| := by
    rw [Motion.mirror, vWant_mirror hv, abs_neg]
  have hvel : |m.mirror.vel| = |m.vel| := abs_neg _
  have hgo (e : Int) : p.mirror.timeToGo vmax e = p.timeToGo vmax e := rfl
  have hleft (w v : Int) : p.mirror.rampLeft vmax w v = p.rampLeft vmax w v := rfl
  have hramp (v : Int) : p.mirror.rampSteps v = p.rampSteps v := rfl
  simp only [timeLeft, hrest, hdist, hdir, hwant, hvel, hgo, hleft, hramp]

theorem timeLeft_toward (h : m.pos < target) (hv : 0 ≤ vmax) (hm : 0 ≤ m.vel) :
    p.timeLeft target vmax span m =
      p.rampLeft vmax (p.vWant target vmax m.pos) m.vel + p.timeToGo vmax (target - m.pos) := by
  have hne : m ≠ ⟨target, 0⟩ := by
    intro e
    rw [e] at h
    exact lt_irrefl _ h
  have herr : 0 < target - m.pos := by omega
  have hwant : 0 ≤ p.vWant target vmax m.pos := by
    rw [vWant_below h]
    exact le_min hv (p.vStop_nonneg _)
  rw [timeLeft, if_neg hne, if_pos (.inl ⟨h, hm⟩), abs_of_pos herr, abs_of_nonneg hm,
    abs_of_nonneg hwant]

/-- Wherever the joint is and wherever it goes. -/
theorem timeLeft_le (hv : 0 ≤ vmax) (hspan : |target - m.pos| ≤ span) :
    p.timeLeft target vmax span m ≤
      p.rampSteps |m.vel| + p.rampSteps vmax + p.timeToGo vmax span := by
  have hvel : (0 : ℝ) ≤ p.rampSteps |m.vel| := by
    exact_mod_cast rampSteps_nonneg (abs_nonneg m.vel)
  have hmax : (0 : ℝ) ≤ p.rampSteps vmax := by exact_mod_cast rampSteps_nonneg hv
  have hgo := p.timeToGo_mono vmax (abs_nonneg _) hspan
  have hpos := p.timeToGo_nonneg vmax (abs_nonneg (target - m.pos))
  unfold timeLeft
  split
  · linarith
  · split
    · have hleft : (p.rampLeft vmax |p.vWant target vmax m.pos| |m.vel| : ℝ) ≤
          p.rampSteps vmax := by exact_mod_cast rampLeft_le hv (abs_nonneg m.vel)
      linarith
    · exact le_rfl

/-- A joint that is slower than it wants to be takes on a step's worth of velocity, or all. -/
theorem rampLeft_track (h : m.pos < target) {want : Int}
    (hslow : m.vel < p.vWant target vmax m.pos) (hwant : want ≤ p.vWant target vmax m.pos) :
    p.rampLeft vmax want (p.trackVel target vmax 1 m) ≤
      p.rampLeft vmax (p.vWant target vmax m.pos) m.vel - 1 := by
  have hd := p.dvMax_pos 1
  have hcap : p.vWant target vmax m.pos ≤ vmax := by
    rw [vWant_below h]
    exact min_le_left _ _
  have hleft := p.rampSteps_pos (v := vmax - m.vel) (by omega)
  rw [rampLeft, rampLeft, if_neg (not_le.mpr hslow)]
  split
  · omega
  · have hnext : p.trackVel target vmax 1 m = m.vel + p.dvMax 1 := by
      have hne : p.trackVel target vmax 1 m < p.vWant target vmax m.pos := by omega
      unfold trackVel at hne ⊢
      rw [slew_eq (by omega)] at hne ⊢
      omega
    rw [hnext, ← rampSteps_sub]
    exact rampSteps_mono (by omega)

theorem timeLeft_track_toward (hv : 0 < vmax) (hp : p.Holds m.pos) (ht : p.Holds target)
    (h : m.pos < target) (hm : 0 ≤ m.vel) :
    p.timeLeft target vmax span (p.track target vmax 1 m) ≤
      max 0 (p.timeLeft target vmax span m - 1) := by
  have hpos : 1 ≤ p.trackVel target vmax 1 m := trackVel_pos 1 hv h hm
  rcases track_covers hp ht h (zero_le_one.trans hpos) with e | ⟨hvel, hshort, hone, hcover⟩
  · rw [e, timeLeft_rest]
    exact le_max_left _ _
  refine le_max_of_le_right ?_
  have hwant : p.vWant target vmax (p.track target vmax 1 m).pos ≤ p.vWant target vmax m.pos := by
    rw [vWant_below hshort, vWant_below h]
    exact min_le_min_left _ (vStop_mono (by omega))
  rw [timeLeft_toward h hv.le hm, timeLeft_toward hshort hv.le (hvel ▸ zero_le_one.trans hpos),
    hvel]
  by_cases hup : p.vWant target vmax m.pos ≤ m.vel
  · -- fast enough, and so after the step
    have hkeep : p.vWant target vmax m.pos ≤ p.trackVel target vmax 1 m := by
      have hle := min_le_slew (v := m.vel) (w := p.vWant target vmax m.pos)
        (zero_le_one.trans (p.dvMax_pos 1))
      rwa [min_eq_right hup] at hle
    have hstep := timeToGo_step (p := p) (show 0 < target - m.pos by omega)
      (show 0 ≤ target - (p.track target vmax 1 m).pos by omega) (vWant_below h ▸ hkeep)
      (by omega) (by omega)
    rw [rampLeft, rampLeft, if_pos hup, if_pos (hwant.trans hkeep)]
    push_cast
    linarith
  · -- speeding up
    have hramp := rampLeft_track h (not_le.mp hup) hwant
    have hramp' : (p.rampLeft vmax (p.vWant target vmax (p.track target vmax 1 m).pos)
        (p.trackVel target vmax 1 m) : ℝ) ≤
          p.rampLeft vmax (p.vWant target vmax m.pos) m.vel - 1 := by exact_mod_cast hramp
    have hgo := p.timeToGo_mono vmax (show 0 ≤ target - (p.track target vmax 1 m).pos by omega)
      (show _ ≤ target - m.pos by omega)
    linarith

/-- A step that turns the velocity to the target stays short of it. -/
theorem track_turns (hv : 0 < vmax) (hp : p.Holds m.pos) (ht : p.Holds target)
    (h : m.pos ≤ target) (hm : m.vel < 0) (hvel : 0 ≤ p.trackVel target vmax 1 m) :
    p.track target vmax 1 m = ⟨target, 0⟩ ∨
      ((p.track target vmax 1 m).pos < target ∧ 0 ≤ (p.track target vmax 1 m).vel) := by
  rcases h.lt_or_eq with h | h
  · rcases track_covers hp ht h hvel with e | ⟨e, hshort, -, -⟩
    · exact .inl e
    · exact .inr ⟨hshort, e ▸ hvel⟩
  · -- on the target the joint wants to stand still
    have hzero : p.trackVel target vmax 1 m = 0 := by
      have hd := p.dvMax_pos 1
      unfold trackVel at hvel ⊢
      rw [h, vWant_at hv.le, slew_eq (by omega)] at hvel ⊢
      omega
    refine .inl (track_arrives (.inr (.inr ⟨by rw [hzero, travel_zero], ?_⟩)))
    rw [h, sub_self]
    decide

theorem timeLeft_track_away (hv : 0 < vmax) (hp : p.Holds m.pos) (ht : p.Holds target)
    (h : m.pos ≤ target) (hm : m.vel < 0)
    (hspan : |target - (p.track target vmax 1 m).pos| ≤ span) :
    p.timeLeft target vmax span (p.track target vmax 1 m) ≤
      max 0 (p.timeLeft target vmax span m - 1) := by
  have hne : m ≠ ⟨target, 0⟩ := by
    intro e
    rw [e] at hm
    exact lt_irrefl _ hm
  have haway : ¬Toward target m := by
    unfold Toward
    omega
  rw [timeLeft.eq_def p target vmax span m, if_neg hne, if_neg haway]
  by_cases hneg : p.trackVel target vmax 1 m < 0
  · by_cases hrest : p.track target vmax 1 m = ⟨target, 0⟩
    · rw [hrest, timeLeft_rest]
      exact le_max_left _ _
    refine le_max_of_le_right ?_
    have hnext : p.trackVel target vmax 1 m = m.vel + p.dvMax 1 := by
      have hw := p.vWant_nonneg hv h
      have hd := p.dvMax_pos 1
      unfold trackVel at hneg ⊢
      rw [slew_eq (by omega)] at hneg ⊢
      omega
    have hvel : (p.track target vmax 1 m).vel = p.trackVel target vmax 1 m := by
      by_cases ha : Arrives (target - m.pos) (travel 1 (p.trackVel target vmax 1 m))
      · exact absurd (track_arrives ha) hrest
      · rw [track_moves ha]
    have hramp : p.rampSteps |(p.track target vmax 1 m).vel| = p.rampSteps |m.vel| - 1 := by
      rw [hvel, hnext, ← rampSteps_sub, abs_of_neg (hnext ▸ hneg), abs_of_neg hm]
      congr 1
      omega
    have hle := p.timeLeft_le hv.le hspan
    rw [hramp] at hle
    push_cast at hle
    linarith
  · rcases track_turns hv hp ht h hm (not_lt.mp hneg) with e | ⟨hshort, hvel⟩
    · rw [e, timeLeft_rest]
      exact le_max_left _ _
    refine le_max_of_le_right ?_
    have herr : 0 < target - (p.track target vmax 1 m).pos := by omega
    rw [abs_of_pos herr] at hspan
    have hgo := p.timeToGo_mono vmax herr.le hspan
    have hleft : (p.rampLeft vmax (p.vWant target vmax (p.track target vmax 1 m).pos)
        (p.track target vmax 1 m).vel : ℝ) ≤ p.rampSteps vmax := by
      exact_mod_cast rampLeft_le hv.le hvel
    have hone : (1 : ℝ) ≤ p.rampSteps |m.vel| := by
      exact_mod_cast p.rampSteps_pos (abs_pos.mpr hm.ne)
    rw [timeLeft_toward hshort hv.le hvel]
    linarith

/-- Every tracking step takes one off the time left. -/
theorem timeLeft_track (hv : 0 < vmax) (hp : p.Holds m.pos) (ht : p.Holds target)
    (hspan : |target - (p.track target vmax 1 m).pos| ≤ span) :
    p.timeLeft target vmax span (p.track target vmax 1 m) ≤
      max 0 (p.timeLeft target vmax span m - 1) := by
  have hle {p : Plant} {target : Int} {m : Motion} (hp : p.Holds m.pos) (ht : p.Holds target)
      (hspan : |target - (p.track target vmax 1 m).pos| ≤ span)
      (h : (m.pos < target ∧ 0 ≤ m.vel) ∨ (m.pos ≤ target ∧ m.vel < 0)) :
      p.timeLeft target vmax span (p.track target vmax 1 m) ≤
        max 0 (p.timeLeft target vmax span m - 1) := by
    rcases h with ⟨h, hm⟩ | ⟨h, hm⟩
    · exact timeLeft_track_toward hv hp ht h hm
    · exact timeLeft_track_away hv hp ht h hm hspan
  by_cases hrest : m = ⟨target, 0⟩
  · rw [hrest, track_rest 1 hv.le, timeLeft_rest]
    exact le_max_left _ _
  by_cases hdir : (m.pos < target ∧ 0 ≤ m.vel) ∨ (m.pos ≤ target ∧ m.vel < 0)
  · exact hle hp ht hspan hdir
  · -- the remaining directions are the mirror images
    have hne : ¬(m.pos = target ∧ m.vel = 0) := by
      rintro ⟨hx, hv0⟩
      exact hrest (by obtain ⟨x, v⟩ := m; exact Motion.mk.injEq .. ▸ ⟨hx, hv0⟩)
    have hspan' : |-target - (p.mirror.track (-target) vmax 1 m.mirror).pos| ≤ span := by
      rw [track_mirror hv.le, ← abs_neg]
      simpa [Motion.mirror, sub_eq_add_neg, add_comm] using hspan
    have hback := hle (holds_mirror.mpr hp) (holds_mirror.mpr ht) hspan'
      (by simp only [Motion.mirror]; omega)
    rwa [track_mirror hv.le, timeLeft_mirror hv.le, timeLeft_mirror hv.le] at hback

theorem rampLeft_nonneg {want v : Int} (h : want ≤ vmax) : 0 ≤ p.rampLeft vmax want v := by
  unfold rampLeft
  split
  · exact le_rfl
  · exact rampSteps_nonneg (by omega)

/-- Only on the target no time is left. -/
theorem eq_of_timeLeft_le_zero (hv : 0 ≤ vmax) (hspan : 0 ≤ span)
    (h : p.timeLeft target vmax span m ≤ 0) : m = ⟨target, 0⟩ := by
  by_contra hne
  rw [timeLeft, if_neg hne] at h
  split at h
  · rename_i hdir
    have herr : 0 < |target - m.pos| := by
      rw [abs_pos]
      unfold Toward at hdir
      omega
    have hleft : (0 : ℝ) ≤ p.rampLeft vmax |p.vWant target vmax m.pos| |m.vel| := by
      exact_mod_cast rampLeft_nonneg ((abs_vWant hv).le.trans (min_le_left _ _))
    have hgo : 0 < p.timeToGo vmax |target - m.pos| :=
      Approach.timeToGo_pos p.decel_pos (stride_cast_pos vmax) (by exact_mod_cast herr)
    linarith
  · rename_i hdir
    have hvel : m.vel ≠ 0 := by
      rintro hv0
      unfold Toward at hdir
      obtain ⟨x, v⟩ := m
      dsimp only at hv0 hdir
      exact hne (Motion.mk.injEq .. ▸ ⟨by omega, hv0⟩)
    have hramp : (1 : ℝ) ≤ p.rampSteps |m.vel| := by
      exact_mod_cast p.rampSteps_pos (abs_pos.mpr hvel)
    have hmax : (0 : ℝ) ≤ p.rampSteps vmax := by exact_mod_cast rampSteps_nonneg hv
    have hgo := p.timeToGo_nonneg vmax hspan
    linarith

/-- The time from anywhere within `span` of the target: to a stop, up to the velocity limit, over
the way, and for braking. -/
def arrivalSteps (p : Plant) (vmax span speed : Int) : Int :=
  p.rampSteps speed + p.rampSteps vmax + divUp span (stride vmax) +
    divUp (1500000 * stride vmax) p.acc

theorem timeLeft_le_arrivalSteps (hv : 0 ≤ vmax) (hspan : |target - m.pos| ≤ span) :
    p.timeLeft target vmax span m ≤ p.arrivalSteps vmax span |m.vel| := by
  have hle := p.timeLeft_le hv hspan
  have hgo := Approach.timeToGo_le p.decel_pos (stride_cast_pos vmax)
    (e := (span : Int)) (by exact_mod_cast (abs_nonneg _).trans hspan)
  have hway := le_divUp (x := span) (stride_pos vmax)
  have hbrake := le_divUp (x := 1500000 * stride vmax) p.acc_pos
  have hacc : (0 : ℝ) < p.acc := by exact_mod_cast p.acc_pos
  have hsame : 3 * (stride vmax : ℝ) / p.decel = (1500000 * stride vmax : Int) / p.acc := by
    unfold decel
    push_cast
    field_simp
    ring
  unfold timeToGo at hle
  unfold arrivalSteps
  rw [hsame] at hgo
  push_cast at hgo hbrake ⊢
  linarith

end Plant

/-! ## Runs -/

namespace Joint

variable {p : Plant} {span : Int} {j : Joint}

/-- A step that stays in position mode. -/
theorem timeLeft_step (h : j.Safe p) (hstay : (j.step 1).mode = JointMode.position.code)
    (hspan : |j.targetMdeg.toInt - (j.step 1).motion.pos| ≤ span) :
    p.timeLeft j.targetMdeg.toInt j.maxVelocityMdegS.toInt span (j.step 1).motion ≤
      max 0 (p.timeLeft j.targetMdeg.toInt j.maxVelocityMdegS.toInt span j.motion - 1) := by
  obtain ⟨-, hd, -⟩ | ⟨-, hm, -, e⟩ := motion_step h (show (1 : UInt32) ≠ 0 by decide)
  · exact absurd (hstay.symm.trans hd) position_ne_disabled
  · have hv : 0 < j.maxVelocityMdegS.toInt := by
      rcases h.mode with hd | ⟨-, hv⟩
      · exact absurd (hm.symm.trans hd) position_ne_disabled
      · exact hv
    rw [e] at hspan ⊢
    exact Plant.timeLeft_track hv h.pos h.target hspan

theorem abs_err_le (h : j.Safe p) : |j.targetMdeg.toInt - j.motion.pos| ≤ p.hi - p.lo := by
  have hpos : p.Holds j.motion.pos := h.pos
  rw [abs_le]
  have := hpos.1; have := hpos.2; have := h.target.1; have := h.target.2
  omega

/-- A run under one target and velocity limit. -/
theorem timeLeft_run (h : j.Safe p) {more : List JointAction} (hmore : ∀ a ∈ more, j.KeepsGoing a)
    (hms : ∀ dt, JointAction.step dt ∈ more → dt = 1) (hstay : Along StaysInPosition j more) :
    (j.run more).targetMdeg = j.targetMdeg ∧
      p.timeLeft j.targetMdeg.toInt j.maxVelocityMdegS.toInt (p.hi - p.lo) (j.run more).motion ≤
        max 0 (p.timeLeft j.targetMdeg.toInt j.maxVelocityMdegS.toInt (p.hi - p.lo) j.motion -
          stepCount more) := by
  induction more generalizing j with
  | nil => exact ⟨rfl, by simp [stepCount]⟩
  | cons a more ih =>
    have ha := hmore a List.mem_cons_self
    have htarget := act_target ha.keepsTarget
    have hvmax := act_vmax ha
    have hsafe := safe_act h a
    have hone : p.timeLeft j.targetMdeg.toInt j.maxVelocityMdegS.toInt (p.hi - p.lo)
        (j.act a).motion ≤ max 0 (p.timeLeft j.targetMdeg.toInt j.maxVelocityMdegS.toInt
          (p.hi - p.lo) j.motion - if a.isStep then 1 else 0) := by
      cases a with
      | command cmd =>
        rw [show (j.act (.command cmd)).motion = j.motion from j.command_motion cmd.1]
        simp [JointAction.isStep]
      | step dt =>
        obtain rfl := hms dt List.mem_cons_self
        exact timeLeft_step h hstay.1 (htarget ▸ abs_err_le hsafe)
    obtain ⟨hsame, hrest⟩ := ih hsafe (fun b hb => by
      rw [keepsGoing_act ha]; exact hmore b (List.mem_cons_of_mem a hb))
      (fun dt hdt => hms dt (List.mem_cons_of_mem a hdt)) hstay.2
    rw [htarget] at hsame hrest
    rw [hvmax] at hrest
    have hcount : stepCount (a :: more) = stepCount more + if a.isStep then 1 else 0 := by
      rw [stepCount, List.countP_cons]; rfl
    refine ⟨hsame, hrest.trans (max_le (le_max_left _ _) ?_)⟩
    rw [hcount]
    push_cast
    rcases le_max_iff.mp hone with h0 | h1
    · exact le_max_of_le_left (by have := (stepCount more).cast_nonneg (α := ℝ); linarith)
    · exact le_max_of_le_right (by linarith)

/-- **Arrival in time.** From any reachable joint, a run in steps of one millisecond that stays in
position mode under one target and velocity limit is at rest on the target once it has made the
steps it takes to a stop, up to the velocity limit, through the whole range and for braking. -/
theorem arrives_within {cfg : JointConfig} (hcfg : cfg.HoldsZero) {acts more : List JointAction}
    (hmore : ∀ a ∈ more, ((init cfg).run acts).KeepsGoing a)
    (hms : ∀ dt, JointAction.step dt ∈ more → dt = 1)
    (hstay : Along StaysInPosition ((init cfg).run acts) more)
    (hcount : (cfg.plant hcfg).arrivalSteps ((init cfg).run acts).maxVelocityMdegS.toInt
      (cfg.maxMdeg.toInt - cfg.minMdeg.toInt) |((init cfg).run acts).velocityMdegS.toInt| ≤
        stepCount more) :
    (((init cfg).run acts).run more).positionMdeg = ((init cfg).run acts).targetMdeg ∧
    (((init cfg).run acts).run more).targetMdeg = ((init cfg).run acts).targetMdeg ∧
    (((init cfg).run acts).run more).velocityMdegS = 0 := by
  have h := safe_reachable cfg hcfg acts
  obtain ⟨hsame, hleft⟩ := timeLeft_run h hmore hms hstay
  have herr := abs_err_le h
  have hstart := (cfg.plant hcfg).timeLeft_le_arrivalSteps h.vmax herr
  have hcount' : ((cfg.plant hcfg).arrivalSteps ((init cfg).run acts).maxVelocityMdegS.toInt
      ((cfg.plant hcfg).hi - (cfg.plant hcfg).lo) |((init cfg).run acts).motion.vel| : ℝ) ≤
        stepCount more := by exact_mod_cast hcount
  have hend := Plant.eq_of_timeLeft_le_zero h.vmax ((abs_nonneg _).trans herr)
    (hleft.trans_eq (max_eq_left (by linarith)))
  exact ⟨Int32.toInt_inj.mp (congrArg Motion.pos hend), hsame,
    Int32.toInt_inj.mp (congrArg Motion.vel hend)⟩

/-- Turned round on the way, and at rest after nine steps. -/
theorem arrives_within_short :
    (((init ⟨-3, 4, 2000000, 30⟩).run
      [.command ⟨⟨1, -3, 3000, 1⟩, decoderAccepts_iff.mpr (by decide)⟩, .step 1,
        .command ⟨⟨1, 4, 3000, 2⟩, decoderAccepts_iff.mpr (by decide)⟩]).run
      (List.replicate 9 (.step 1))).velocityMdegS = 0 :=
  (@arrives_within ⟨-3, 4, 2000000, 30⟩ (by decide)
    [.command ⟨⟨1, -3, 3000, 1⟩, decoderAccepts_iff.mpr (by decide)⟩, .step 1,
      .command ⟨⟨1, 4, 3000, 2⟩, decoderAccepts_iff.mpr (by decide)⟩]
    (List.replicate 9 (.step 1)) (by decide +kernel)
    (fun _ h => JointAction.step.inj (List.eq_of_mem_replicate h)) (by decide +kernel)
    (by decide +kernel)).2.2

end Joint
end Rjs
