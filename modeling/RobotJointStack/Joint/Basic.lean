import RobotJointStack.Lib.CInt
import RobotJointStack.Protocol.Types

/-!
# Joint.Basic

The joint model of `joint.c`, function by function and in the source's integer types: 32-bit
state, 64-bit intermediates, C's truncating division. `Joint.step` is split at the source's own
three blocks: the command timeout, the braking branch and the position branch.

Signed overflow is undefined in C; here 64-bit arithmetic wraps. The only product that can leave
`int64_t` is the stop distance `2 * a * |err|`, which the source converts to `uint64_t` at once.
-/

namespace Rjs

open CInt

/-- `rjs_joint_config_t`. -/
structure JointConfig where
  minMdeg : Int32
  maxMdeg : Int32
  accelMdegS2 : Int32
  commandTimeoutMs : UInt32
deriving DecidableEq, Repr

/-- `rjs_joint_t`. -/
structure Joint where
  cfg : JointConfig
  mode : UInt8
  positionMdeg : Int32
  velocityMdegS : Int32
  targetMdeg : Int32
  maxVelocityMdegS : Int32
  lastSeq : UInt16
  sinceCommandMs : UInt32
  errorFlags : UInt16
  timeouts : UInt32
deriving DecidableEq, Repr

def clamp32 (v : Int64) (lo hi : Int32) : Int32 :=
  if v < lo.toInt64 then lo
  else if v > hi.toInt64 then hi
  else v.toInt32

def abs64 (v : Int64) : Int64 := if v < 0 then -v else v

/-- The first loop of `isqrt_u64`: the largest power of four not above `x`. -/
def isqrtTopBit (x bit : UInt64) : UInt64 :=
  if _h : bit > x then isqrtTopBit x (bit >>> 2) else bit
termination_by bit.toNat
decreasing_by
  have : x.toNat < bit.toNat := _h
  simp [UInt64.toNat_shiftRight, Nat.shiftRight_eq_div_pow]
  omega

/-- The second loop of `isqrt_u64`. -/
def isqrtLoop (x r bit : UInt64) : UInt64 :=
  if _h : bit ≠ 0 then
    if x ≥ r + bit then isqrtLoop (x - (r + bit)) ((r >>> 1) + bit) (bit >>> 2)
    else isqrtLoop x (r >>> 1) (bit >>> 2)
  else r
termination_by bit.toNat
decreasing_by
  all_goals
    have : bit.toNat ≠ 0 := fun h0 => _h (UInt64.toNat_inj.mp (by simpa using h0))
    simp [UInt64.toNat_shiftRight, Nat.shiftRight_eq_div_pow]
    omega

def isqrtU64 (x : UInt64) : UInt64 := isqrtLoop x 0 (isqrtTopBit x ((1 : UInt64) <<< 62))

namespace Joint

def init (cfg : JointConfig) : Joint where
  cfg := { cfg with accelMdegS2 := if cfg.accelMdegS2 ≤ 0 then 1 else cfg.accelMdegS2 }
  mode := JointMode.disabled.code
  positionMdeg := 0
  velocityMdegS := 0
  targetMdeg := 0
  maxVelocityMdegS := 0
  lastSeq := 0
  sinceCommandMs := 0
  errorFlags := 0
  timeouts := 0

def command (j : Joint) (cmd : Command) : Joint :=
  let j := { j with lastSeq := cmd.sequence
                    sinceCommandMs := 0
                    mode := cmd.mode
                    errorFlags := j.errorFlags &&& ~~~errPeerLost }
  if cmd.mode ≠ JointMode.position.code then j
  else
    { j with maxVelocityMdegS := cmd.maxVelocityMdegS
             errorFlags :=
               if cmd.targetMdeg < j.cfg.minMdeg ∨ cmd.targetMdeg > j.cfg.maxMdeg then
                 j.errorFlags ||| errLimitReached
               else j.errorFlags &&& ~~~errLimitReached
             targetMdeg := clamp32 cmd.targetMdeg.toInt64 j.cfg.minMdeg j.cfg.maxMdeg }

/-- The command timeout block of `rjs_joint_step`. -/
def checkTimeout (j : Joint) (dtMs : UInt32) : Joint :=
  if j.mode = JointMode.position.code ∧ j.cfg.commandTimeoutMs ≠ 0 then
    let j := { j with sinceCommandMs := j.sinceCommandMs + dtMs }
    if j.sinceCommandMs > j.cfg.commandTimeoutMs then
      { j with mode := JointMode.disabled.code
               errorFlags := j.errorFlags ||| errPeerLost
               timeouts := j.timeouts + 1 }
    else j
  else j

/-- The velocity left by the braking branch: the acceleration limit taken off the speed. -/
def brakedVelocity (j : Joint) (dtMs : UInt32) : Int64 :=
  let dv := j.cfg.accelMdegS2.toInt64 * u32ToI64 dtMs / 1000
  let v := j.velocityMdegS.toInt64
  if abs64 v ≤ dv then 0 else v + (if v > 0 then -dv else dv)

/-- The braking branch of `rjs_joint_step`. -/
def brake (j : Joint) (dtMs : UInt32) : Joint :=
  let v := j.brakedVelocity dtMs
  { j with velocityMdegS := v.toInt32
           positionMdeg :=
             clamp32 (j.positionMdeg.toInt64 + v * u32ToI64 dtMs / 1000)
               j.cfg.minMdeg j.cfg.maxMdeg }

/-- The velocity `rjs_joint_step` wants in position mode: the commanded limit or the largest speed
from which the joint can still stop at the target, toward the target. -/
def vWant (j : Joint) : Int64 :=
  let err := j.targetMdeg.toInt64 - j.positionMdeg.toInt64
  let a := j.cfg.accelMdegS2.toInt64
  let vStop := (isqrtU64 (2 * a * abs64 err).toUInt64).toInt64
  let vLimit := j.maxVelocityMdegS.toInt64
  let vLimit := if vStop < vLimit then vStop else vLimit
  if err > 0 then vLimit else -vLimit

/-- The velocity moved toward `vWant`, limited by acceleration. -/
def rampedVelocity (j : Joint) (dtMs : UInt32) : Int64 :=
  let dvMax := j.cfg.accelMdegS2.toInt64 * u32ToI64 dtMs / 1000
  let dvMax := if dvMax < 1 then 1 else dvMax
  let v := j.velocityMdegS.toInt64
  let vWant := j.vWant
  if vWant > v then (if vWant - v > dvMax then v + dvMax else vWant)
  else (if v - vWant > dvMax then v - dvMax else vWant)

/-- The end of the position branch: the position increment and the velocity after it. -/
def finishStep (err step v : Int64) : Int64 × Int64 :=
  -- never overshoot the target
  let (step, v) := if (err > 0 ∧ step > err) ∨ (err < 0 ∧ step < err) then (err, 0) else (step, v)
  -- integer truncation can round a small step to zero: crawl
  let step := if step = 0 ∧ err ≠ 0 then (if err > 0 then 1 else -1) else step
  (step, if step = err then 0 else v)

/-- The position branch of `rjs_joint_step`. -/
def track (j : Joint) (dtMs : UInt32) : Joint :=
  let err := j.targetMdeg.toInt64 - j.positionMdeg.toInt64
  let v := j.rampedVelocity dtMs
  let (step, v) := finishStep err (v * u32ToI64 dtMs / 1000) v
  { j with velocityMdegS := v.toInt32
           positionMdeg :=
             clamp32 (j.positionMdeg.toInt64 + step) j.cfg.minMdeg j.cfg.maxMdeg }

def step (j : Joint) (dtMs : UInt32) : Joint :=
  if dtMs = 0 then j
  else
    let j := j.checkTimeout dtMs
    if j.mode ≠ JointMode.position.code then j.brake dtMs else j.track dtMs

def getState (j : Joint) : JointState where
  mode := j.mode
  positionMdeg := j.positionMdeg
  velocityMdegS := j.velocityMdegS
  currentMa :=
    let v := if j.velocityMdegS < 0 then -j.velocityMdegS else j.velocityMdegS
    (if j.mode = JointMode.position.code then 50 + v / 1000 else 0).toInt16
  temperatureC10 := 250
  lastCommandSeq := j.lastSeq

end Joint

end Rjs
