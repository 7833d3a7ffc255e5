import EventScript.Checked
import EventScript.IdMap
import EventScript.Json.Form
import EventScript.Json.Parser
import EventScript.Json.Printer
import EventScript.Text.Quoted
import EventScript.Text.Words
import EventScript.Opcode
import EventScript.Command
import EventScript.LoadError
import EventScript.Config
import EventScript.Database.Validation
import EventScript.Blocks
import EventScript.World
import EventScript.Commands.Message
import EventScript.Commands.Memory
import EventScript.Commands.Party
import EventScript.Commands.Scenes
import EventScript.Commands.Movement
import EventScript.Commands.Keys
import EventScript.Commands.Branching
import EventScript.Commands.Battle
import EventScript.Commands.Dispatch
import EventScript.Interpreter.Update
import EventScript.Director.Lead
import EventScript.Main
import EventScript.Proofs.Acceptance
import EventScript.Proofs.WrittenForms
import EventScript.Proofs.Recursion
import EventScript.Proofs.Budget
import EventScript.Proofs.FreshPages
import EventScript.Proofs.Replies
import EventScript.Proofs.Latches
import EventScript.Proofs.LandingTables
import EventScript.Proofs.LayoutRuns
import EventScript.Proofs.HeldRequests
import EventScript.Proofs.HeldUpdates
import EventScript.Proofs.Retries
import EventScript.Proofs.Agenda
import EventScript.Proofs.Locks
import EventScript.Proofs.EventLocks
import EventScript.Proofs.AtRest
import EventScript.Proofs.Estate
import EventScript.Proofs.Strokes
import EventScript.Proofs.Falls
import EventScript.Proofs.Courses
import EventScript.Proofs.KnockOut
import EventScript.Proofs.PartyBounds
import EventScript.Proofs.Windows
import EventScript.Proofs.CallDepth
import EventScript.Proofs.Teleports
import EventScript.Proofs.TotalMaps
import EventScript.Proofs.CallTrees
import EventScript.Proofs.Vehicles
import EventScript.Proofs.TroopPages
import EventScript.Proofs.BrokenOff
import EventScript.Proofs.Slices
import EventScript.Proofs.Twins
import EventScript.Proofs.LoopBreaks
import EventScript.Proofs.BattleSections
import EventScript.Proofs.Choices
import EventScript.Proofs.SectionRuns
import EventScript.Proofs.Inns
import EventScript.Proofs.OwnSections
import EventScript.Proofs.Equipment
import EventScript.Proofs.InnStays
import EventScript.Proofs.Purchases
import EventScript.Proofs.Dialogues
import EventScript.Proofs.LongGames
import EventScript.Proofs.ForcedRoutes
import EventScript.Proofs.StoredRoutes
import EventScript.Proofs.KeyCaptures
import EventScript.Proofs.TroopConditions
import EventScript.Proofs.NearestPlaces
