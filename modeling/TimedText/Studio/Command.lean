import TimedText.Studio.Basic

/-!
# Commands to a studio

What an editor can ask of a studio, and what it is answered. While the queue is run further
commands may come in: they are carried out when the engine begins to work. Each answer comes with
what whoever listens was told, and what there was to tell, since the answer before.
-/

namespace TimedText.Studio

/-- What is asked of a studio. -/
inductive Command where
  | upload (data : Bytes)
  | addCue (fields : Fields)
  | beginEdit (index : Int)
  | cancelEdit
  | updateDraft (fields : Fields)
  | stamp
  | commit
  | deleteCue (index : Int)
  | setTime (t : Double)
  | setDuration (d : Double)
  | startRender
  /-- A render of given cues and a given video, whose end is waited for. -/
  | render (source : Option Bytes) (cues : List Fields) (total : Double)
  /-- The waiting renders have their turn. -/
  | runQueue (during : List Command)
  | reset
  | close
  | equip (equipment : Equipment)
  | save (path : String)
  deriving Inhabited

/-- Why a command fails. -/
inductive Error where
  | session (e : Session.Error)
  | save (e : Render.SaveError)
  /-- A fault that a render ended with, whose end was waited for. -/
  | fault (f : Fault)
  deriving DecidableEq

/-- What is readable about a studio after a command. -/
structure Scene where
  session : Session
  notices : List Notice
  records : List Log.Record

/-- What a command is answered. -/
inductive Answer where
  | done
  | failed (e : Error)
  | written (index : Option Nat)
  | cue (c : Cue)
  | label (text : String)
  /-- A render was accepted. -/
  | accepted
  | artifact (a : Option Render.Artifact)
  | ran (results : List (Option Render.Artifact)) (during : List (Answer × Scene))
  | saved (path : List String) (data : Bytes)

/-- An answer and what is readable after it. -/
abbrev Report := Answer × Scene

/-- Takes the notices and records. -/
def takeScene (s : Studio) : Scene × Studio :=
  (⟨s.session, s.notices, s.records⟩, { s with notices := [], records := [] })

/-- A failure of the session. -/
def refuse (e : Session.Error) (s : Studio) : Answer × Studio := (.failed (.session e), s)

/-- A cue from its fields. -/
def cueOf (fields : Fields) : Except Session.Error Cue :=
  (Cue.build fields).mapError .invalidCue

/-- A render whose end is waited for. -/
def renderNow (s : Studio) (source : Option Bytes) (cues : List Cue) (total : Double) :
    Answer × Studio :=
  match { s with deferred := false }.beginRender (s.session.start source cues total) with
  | (.error e, after) => refuse e { after with deferred := s.deferred }
  | (.ok a, after) =>
    match a.result with
    | some (.error f) => (.failed (.fault f), { after with deferred := s.deferred })
    | some (.ok artifact) => (.artifact artifact, { after with deferred := s.deferred })
    | none => (.artifact none, { after with deferred := s.deferred })

/-- Commands that leave the queue alone. -/
def performSimple (s : Studio) : Command → Answer × Studio
  | .upload data => (.done, s.upload data)
  | .addCue fields =>
    match cueOf fields with
    | .error e => refuse e s
    | .ok c =>
      let (index, s) := s.addCue c
      (.written (some index), s)
  | .beginEdit index =>
    match s.session.beginEdit index with
    | .error e => refuse e s
    | .ok session => (.done, { s with session })
  | .cancelEdit => (.done, { s with session := s.session.cancelEdit })
  | .updateDraft fields =>
    match s.session.updateDraft fields with
    | .error e => refuse e s
    | .ok (c, session) => (.cue c, { s with session })
  | .stamp =>
    match s.session.stamp with
    | .error e => refuse e s
    | .ok (c, session) => (.cue c, { s with session })
  | .commit =>
    match s.session.commitDraft with
    | (.error e, records) => refuse e (s.log records)
    | (.ok (index, session), records) => (.written index, { s with session }.log records)
  | .deleteCue index =>
    match s.session.deleteCue index with
    | .error e => refuse e s
    | .ok (c, session) => (.label c.label, { s with session })
  | .setTime t => (.done, { s with session := s.session.setTime t })
  | .setDuration d => (.done, s.setDuration d)
  | .startRender =>
    match s.startRender with
    | (.error e, s) => refuse e s
    | (.ok a, s) => (if a.accepted then .accepted else .done, s)
  | .render source cues total =>
    match cues.mapM cueOf with
    | .error e => refuse e s
    | .ok cues => s.renderNow source cues total
  | .runQueue _ => (.done, s)
  | .reset => (.done, (s.change (s.session.reset .return)).2)
  | .close => (.done, s)
  | .equip equipment => (.done, { s with engine := s.engine.equip equipment })
  | .save path =>
    match s.session.orchestrator.artifact with
    | none => (.done, s)
    | some a =>
      match a.save s.disk s.origin path none with
      | (.error e, disk) => (.failed (.save e), { s with disk })
      | (.ok path, disk) => (.saved path a.data, { s with disk })

/-- The video that a render has come to, if it has. -/
def videoOf (r : Render.Run) : Option Render.Artifact := (outcomeOf r).toOption.join

/-- Runs of the queue one after another. Each is brought up to the work of the engine; there
`during` is carried out, unless that was done in an earlier run. -/
def runAll (s : Studio) (during : Option (Studio → List Report × Studio)) :
    List Render.Run → List (Option Render.Artifact) × List Report × Studio
  | [] => ([], [], s)
  | r :: rest =>
    match s.beginRun r with
    | (r, none, s) =>
      let (results, reports, s) := runAll s during rest
      (videoOf r :: results, reports, s)
    | (r, some arguments, s) =>
      let (reports, s) := match during with
        | none => ([], s)
        | some f => f s
      let (r, s) := s.endRun r arguments
      let (results, _, s) := runAll s none rest
      (videoOf r :: results, reports, s)

mutual

/-- Carries a command out. -/
def perform (s : Studio) (c : Command) : Answer × Studio :=
  match c with
  | .runQueue during =>
    let (results, reports, s) :=
      { s with queue := [] }.runAll
        (some fun s =>
          match s.engine with
          | .memory _ => performAll s during
          | .external _ => ([], s))
        s.queue
    (.ran results reports, s)
  | c => s.performSimple c

/-- Carries commands out one after another, each with what is readable after it. -/
def performAll (s : Studio) (cs : List Command) : List Report × Studio :=
  match cs with
  | [] => ([], s)
  | c :: cs =>
    let (answer, s) := perform s c
    let (scene, s) := s.takeScene
    let (reports, s) := performAll s cs
    ((answer, scene) :: reports, s)

end

end TimedText.Studio
