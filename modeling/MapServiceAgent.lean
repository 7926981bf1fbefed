import MapServiceAgent.ForStd.Announce
import MapServiceAgent.ForStd.Base64
import MapServiceAgent.ForStd.Coroutine
import MapServiceAgent.ForStd.Dict
import MapServiceAgent.ForStd.Except
import MapServiceAgent.ForStd.Feed
import MapServiceAgent.ForStd.List
import MapServiceAgent.ForStd.Lockstep
import MapServiceAgent.ForStd.Path
import MapServiceAgent.ForStd.Pool
import MapServiceAgent.ForStd.PyFloat
import MapServiceAgent.ForStd.Scan
import MapServiceAgent.ForStd.StateGraph
import MapServiceAgent.ForStd.Tally
import MapServiceAgent.ForStd.Text
import MapServiceAgent.ForStd.Timetable
import MapServiceAgent.ForStd.TokenBucket
import MapServiceAgent.Native.AgentGraph
import MapServiceAgent.Native.AgentState
import MapServiceAgent.Native.Calendar
import MapServiceAgent.Native.CandidateNodes
import MapServiceAgent.Native.CheckpointMigration
import MapServiceAgent.Native.CheckpointSeal
import MapServiceAgent.Native.Collect
import MapServiceAgent.Native.DoneStream
import MapServiceAgent.Native.Errors
import MapServiceAgent.Native.EvalRun
import MapServiceAgent.Native.Evaluation
import MapServiceAgent.Native.InputNodes
import MapServiceAgent.Native.JobEvents
import MapServiceAgent.Native.JsonText
import MapServiceAgent.Native.Judge
import MapServiceAgent.Native.LocationSeal
import MapServiceAgent.Native.PromptJson
import MapServiceAgent.Native.Prompts
import MapServiceAgent.Native.Python
import MapServiceAgent.Native.RateLimit
import MapServiceAgent.Native.ReasonNode
import MapServiceAgent.Native.RecommendRequest
import MapServiceAgent.Native.RouteNode
import MapServiceAgent.Native.RunJob
import MapServiceAgent.Native.Sanitize
import MapServiceAgent.Native.Schemas
import MapServiceAgent.Native.Scorer
import MapServiceAgent.Native.SegmentStats
import MapServiceAgent.Native.SelectedPlaces
import MapServiceAgent.Native.SelectionNodes
import MapServiceAgent.Native.Service
import MapServiceAgent.Native.StructuredCall
import MapServiceAgent.Native.SummaryNodes
import MapServiceAgent.Native.TimelineNodes
import MapServiceAgent.Spec.AcquireCorrect
import MapServiceAgent.Spec.AgentGraphCorrect
import MapServiceAgent.Spec.AlikeNodes
import MapServiceAgent.Spec.AlikeRuns
import MapServiceAgent.Spec.BudgetCorrect
import MapServiceAgent.Spec.CalendarCorrect
import MapServiceAgent.Spec.CandidatesCorrect
import MapServiceAgent.Spec.CapCorrect
import MapServiceAgent.Spec.CheckpointCorrect
import MapServiceAgent.Spec.CollectCorrect
import MapServiceAgent.Spec.DayIsolation
import MapServiceAgent.Spec.DayTrim
import MapServiceAgent.Spec.DistinctCorrect
import MapServiceAgent.Spec.DoneStreamCorrect
import MapServiceAgent.Spec.EnvelopeCorrect
import MapServiceAgent.Spec.EvalCorrect
import MapServiceAgent.Spec.EvaluationCorrect
import MapServiceAgent.Spec.EvidenceCorrect
import MapServiceAgent.Spec.FailureCorrect
import MapServiceAgent.Spec.FitCorrect
import MapServiceAgent.Spec.ForecastCorrect
import MapServiceAgent.Spec.ForecastGaps
import MapServiceAgent.Spec.GateCorrect
import MapServiceAgent.Spec.GivenRouteCorrect
import MapServiceAgent.Spec.InputCorrect
import MapServiceAgent.Spec.ItineraryCorrect
import MapServiceAgent.Spec.JsonCorrect
import MapServiceAgent.Spec.JudgeCorrect
import MapServiceAgent.Spec.MigrationCorrect
import MapServiceAgent.Spec.NodeFrames
import MapServiceAgent.Spec.OffsetsCorrect
import MapServiceAgent.Spec.OptionalSteps
import MapServiceAgent.Spec.PlacesCorrect
import MapServiceAgent.Spec.PlannerCorrect
import MapServiceAgent.Spec.PromptCorrect
import MapServiceAgent.Spec.PromptFence
import MapServiceAgent.Spec.ProvenanceCorrect
import MapServiceAgent.Spec.PruneCorrect
import MapServiceAgent.Spec.RankCorrect
import MapServiceAgent.Spec.RateLimitCorrect
import MapServiceAgent.Spec.ReasonCorrect
import MapServiceAgent.Spec.RouteCorrect
import MapServiceAgent.Spec.RouteScoreCorrect
import MapServiceAgent.Spec.RunJobCorrect
import MapServiceAgent.Spec.SanitizeCorrect
import MapServiceAgent.Spec.ScorerCorrect
import MapServiceAgent.Spec.SealCorrect
import MapServiceAgent.Spec.SelectedCorrect
import MapServiceAgent.Spec.SelectionCorrect
import MapServiceAgent.Spec.ServiceCorrect
import MapServiceAgent.Spec.SignalCorrect
import MapServiceAgent.Spec.StagesCorrect
import MapServiceAgent.Spec.StatsCorrect
import MapServiceAgent.Spec.SummaryCorrect
import MapServiceAgent.Spec.TasteCorrect
import MapServiceAgent.Spec.TimelineCorrect
import MapServiceAgent.Spec.TourCorrect
import MapServiceAgent.Spec.TrimCorrect
