import ControlLoop.Api.Discovery
import ControlLoop.Controller.Run
import ControlLoop.Main
import ControlLoop.Proofs.ConditionHistory
import ControlLoop.Proofs.Draining
import ControlLoop.Proofs.FinalizerEdits
import ControlLoop.Proofs.InformerRuns
import ControlLoop.Proofs.LevelTriggered
import ControlLoop.Proofs.LoadedSettings
import ControlLoop.Proofs.PatchTexts
import ControlLoop.Proofs.QueueOrder
import ControlLoop.Proofs.ReadyConditions
import ControlLoop.Proofs.RecommendedKinds
import ControlLoop.Proofs.ResumeProtocol
import ControlLoop.Proofs.RetriedKeys
import ControlLoop.Proofs.RetriedPatches
import ControlLoop.Proofs.ServiceRuns
import ControlLoop.Proofs.StableWire
import ControlLoop.Proofs.StartAndStop
import ControlLoop.Proofs.UnseenEvents
import ControlLoop.Proofs.WidgetAdmission
import ControlLoop.Queue.Service
import ControlLoop.Resource.Namespace
import ControlLoop.Scenario.Operation
import ControlLoop.Scenario.Rehearsal
import ControlLoop.Scenario.Routes
import ControlLoop.Scenario.Script
