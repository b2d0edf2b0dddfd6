import Montage.Proofs.Compile.SplitLayout
import Montage.Proofs.Engine.Progress
import Montage.Proofs.Render.Orderly

/-!
# The story a render tells

What can be observed of a render, in one order: the messages of the render, what others write to
the log, the requests to the engine, the percentages that the caller is told, and the removal
attempts. Every step goes on with the story, so that the story of a whole render is put together
from those of its parts. Only a render that is stopped breaks off: it tries to remove the uploads
and says nothing of its end.
-/

namespace Montage

open Montage.Graph (Program)

/-! ### Messages and happenings -/

/-- The messages of a render. -/
inductive RenderMessage where
  | started (subject : String)
  | progress (percent : Nat)
  | warning (unremoved : Nat)
  | completed (output : RenderOutput)
  | failed (e : RenderError)

namespace RenderMessage

/-- How a message is logged. -/
def event : RenderMessage → LogEvent
  | started subject => .info ("Render started: " ++ subject)
  | progress percent => .info s!"Render progress: {percent}%"
  | warning unremoved => .warning s!"Render warning: {unremoved} uploads could not be removed"
  | completed output =>
    .info ("Render completed: " ++ output.outputPath.text ++ " (" ++
      Timestamp.format output.duration ++ ")")
  | failed e => .error ("Render error: " ++ e.message ++ " (" ++ e.kind.name ++ ")")

/-- The message that a render with this result ends with. -/
def ofResult : Except RenderError RenderOutput → RenderMessage
  | .ok output => completed output
  | .error e => failed e

/-- The message about uploads that could not be removed, if there are any. -/
def warningOf (unremoved : ℕ) : List RenderMessage :=
  if 0 < unremoved then [warning unremoved] else []

/-- The messages once the uploads are removed: how many of them could not be, if any, and how the
render ended. Of a render that was stopped there are none. -/
def closing (cleanup : Cleanup) (result : Except (Halt RenderError) RenderOutput) :
    List RenderMessage :=
  (answer? result).elim [] fun answer ↦ warningOf cleanup.report.failed ++ [ofResult answer]

end RenderMessage

/-- Whether an event reads like a message of a render. -/
def LogEvent.isOfRender (event : LogEvent) : Bool :=
  "Render ".toList.isPrefixOf event.message.toList

/-- What can be observed of a render: it says a message, another event is logged, the engine is
asked, the caller is told a percentage, or the removal of an upload is attempted. -/
inductive Happening where
  | said (message : RenderMessage)
  | remarked (event : LogEvent)
  | asked (request : Engine.Request)
  | told (percent : Nat)
  | attempted (path : FilePath) (fault : Option FileFault)

namespace Happening

def event? : Happening → Option LogEvent
  | said message => some message.event
  | remarked event => some event
  | _ => none

def request? : Happening → Option Engine.Request
  | asked request => some request
  | _ => none

def percent? : Happening → Option Nat
  | told percent => some percent
  | _ => none

def path? : Happening → Option FilePath
  | attempted path _ => some path
  | _ => none

/-- Whether this is something else than an event of others. -/
def isOwn : Happening → Bool
  | said _ | asked _ | told _ | attempted _ _ => true
  | remarked _ => false

end Happening

/-- The events that an engine logs itself. -/
def Engine.Run.remarks (run : Run) : List LogEvent :=
  run.events.filterMap fun
    | .progress _ => none
    | .log event => some event

namespace Session

/-- A session is what another has become by these happenings. -/
structure Continues (before : Session) (story : List Happening) (after : Session) : Prop where
  log : after.log = before.log ++ story.filterMap Happening.event?
  requests : after.requests = before.requests ++ story.filterMap Happening.request?
  progress : after.progress = before.progress ++ story.filterMap Happening.percent?
  removals : after.removals = before.removals ++ story.filterMap Happening.path?

variable {before middle after : Session} {heard : List LogEvent} {xs ys : List Happening}

theorem Continues.append (h : before.Continues xs middle) (h' : middle.Continues ys after) :
    before.Continues (xs ++ ys) after where
  log := by rw [h'.log, h.log, List.filterMap_append, List.append_assoc]
  requests := by rw [h'.requests, h.requests, List.filterMap_append, List.append_assoc]
  progress := by rw [h'.progress, h.progress, List.filterMap_append, List.append_assoc]
  removals := by rw [h'.removals, h.removals, List.filterMap_append, List.append_assoc]

/-- A session has become another by these happenings in this order and by events of others between
them. The events that read like messages of a render are among those that were heard. -/
def Passes (heard : List LogEvent) (before : Session) (own : List Happening) (after : Session) :
    Prop :=
  ∃ story, before.Continues story after ∧ story.filter Happening.isOwn = own ∧
    ∀ event, .remarked event ∈ story → event.isOfRender = false ∨ event ∈ heard

theorem Passes.append (h : before.Passes heard xs middle) (h' : middle.Passes heard ys after) :
    before.Passes heard (xs ++ ys) after := by
  obtain ⟨story, hc, hown, hothers⟩ := h
  obtain ⟨story', hc', hown', hothers'⟩ := h'
  refine ⟨story ++ story', hc.append hc', by rw [List.filter_append, hown, hown'], ?_⟩
  intro event he
  rcases List.mem_append.mp he with he | he
  · exact hothers event he
  · exact hothers' event he

theorem Passes.mono (h : before.Passes [] xs after) (heard : List LogEvent) :
    before.Passes heard xs after := by
  obtain ⟨story, hc, hown, hothers⟩ := h
  exact ⟨story, hc, hown, fun event he ↦ .inl ((hothers event he).resolve_right List.not_mem_nil)⟩

/-- The message about a percentage, and the percentage for the caller. -/
def reportOf (percent : ℕ) : List Happening := [.said (.progress percent), .told percent]

end Session

/-! ### The steps of a render -/

namespace RenderStep

variable {α β : Type} {step : RenderStep α} {next : α → RenderStep β} {own : List Happening}

/-- However the step comes out, this happens in it, and no event of others in it reads like a
message of a render. -/
def Speaks (step : RenderStep α) (own : List Happening) : Prop :=
  ∀ session : Session, session.Passes [] own (step.outcome session).2

theorem Speaks.bind (h : step.Speaks own) (hn : ∀ value, (next value).Speaks []) :
    Speaks (step >>= next) own := by
  intro session
  have hfirst := h session
  rw [outcome_bind]
  generalize step.outcome session = outcome at hfirst ⊢
  rcases outcome with ⟨_ | value, after⟩
  · exact hfirst
  · have hboth := hfirst.append (hn value after)
    rwa [List.append_nil] at hboth

end RenderStep

namespace RenderJob

variable {job : RenderJob}

/-- What was asked of the engine in a render: nothing, or a request with these files. -/
abbrev Asked := Option (Engine.Request × FileSystem)

/-- The run that was asked for, if there was one. -/
def run? (job : RenderJob) (asked : Asked) : Option Engine.Run :=
  asked.map fun (request, files) ↦ job.engine request files

/-- The percentages of a render. -/
def percents (job : RenderJob) (asked : Asked) : List ℕ :=
  (job.run? asked).elim [] Engine.Run.progress

/-- The events of the engine that are logged in a render. -/
def heard (job : RenderJob) (asked : Asked) : List LogEvent :=
  (job.run? asked).elim [] Engine.Run.remarks

/-- What happens in a render besides what others log: it says that it started, asks the engine,
passes each percentage on, tries to remove the uploads, and says how many it could not remove, if
any, and how it ended, unless it was stopped. -/
def story (job : RenderJob) (subject : String) (asked : Asked) (cleanup : Cleanup)
    (result : Except (Halt RenderError) RenderOutput) : List Happening :=
  Happening.said (.started subject) ::
    ((asked.map fun (request, _) ↦ Happening.asked request).toList ++
      (job.percents asked).flatMap Session.reportOf ++
      (cleanup.attempts.map (fun attempt ↦ Happening.attempted attempt.1 attempt.2) ++
        (RenderMessage.closing cleanup result).map Happening.said))

end RenderJob

end Montage
