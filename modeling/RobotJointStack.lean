import RobotJointStack.Protocol.Grammar
import RobotJointStack.Board.Fidelity
import RobotJointStack.Board.TimingRange
import RobotJointStack.Board.DisplayDma
import RobotJointStack.Joint.Braking
import RobotJointStack.Joint.Timeout
import RobotJointStack.Joint.Limits
import RobotJointStack.Joint.Arrival
import RobotJointStack.Joint.Refresh
import RobotJointStack.Joint.Symmetry
import RobotJointStack.Joint.Overflow
import RobotJointStack.Monitor.Supervision
import RobotJointStack.Monitor.Reboot
import RobotJointStack.Monitor.LifeCycle
import RobotJointStack.Monitor.Registry
import RobotJointStack.Monitor.Isolation
import RobotJointStack.App.Envelope
import RobotJointStack.App.Isolation
import RobotJointStack.App.Newest
import RobotJointStack.App.Snapshot
import RobotJointStack.App.View
import RobotJointStack.App.Stop
import RobotJointStack.App.Arrival
import RobotJointStack.App.Endpoint
import RobotJointStack.App.Statistics
import RobotJointStack.App.NodeLog
import RobotJointStack.App.Loop
import RobotJointStack.Ui.Overwrite
import RobotJointStack.Ui.Rendering
import RobotJointStack.Ui.Bar
import RobotJointStack.Ui.Legible
import RobotJointStack.Tools.Acceptance
import RobotJointStack.Tools.Log
import RobotJointStack.Tools.BusLog
