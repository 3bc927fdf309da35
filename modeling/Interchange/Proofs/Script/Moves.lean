/-
# How commands change a session

There are many commands, but few ways in which one changes a session.  A *move* is one of them: it
stores or forgets something under one name, or writes a property.  Each move says where what it
stores comes from, and what it tells of the registry of native objects.

* `moves_perform`: a command makes moves, and its reply tells what they tell;
* `moves_run`: so does a run, so that what every move keeps, every run keeps.
-/
import Interchange.Script.Session.Run

namespace Interchange.Script

/-! ## 1. What is told of the registry -/

/-- A change of the registry of native objects. -/
inductive Event where
  /-- An object was registered under a number. -/
  | registered (id : ObjectId)
  /-- The object of a number was released. -/
  | released (id : ObjectId)
  deriving DecidableEq

/-- The change of the registry that the reply to a command tells of. -/
def Command.event? : Command → Reply → Option Event
  | _, .registered id _ _ => some (.registered id)
  | .object (.unregister id _), .unregistered _ _ => some (.released id)
  | _, _ => none

/-- The changes of the registry that the replies to some commands tell of, in order. -/
def events (commands : List Command) (replies : List Reply) : List Event :=
  (commands.zip replies).filterMap fun p => p.1.event? p.2

namespace Session

/-! ## 2. Moves -/

/-- Where a datum comes from that is stored under another name: what is stored is never made up. -/
inductive Reads (s : Session) : Datum → Prop where
  | atom (a : Atom) : Reads s (.atom a)
  | named {name : String} {d : Datum} : s.data.get? name = some d → Reads s d
  | property {name : String} {d : Datum} (key : String) :
      s.data.get? name = some d → Reads s (s.heap.get d key)
  | wrapper {id : ObjectId} {d : Datum} : s.heap.wrapper? id = some d → Reads s d
  | kept {name : String} {v : Value Datum} {d : Datum} :
      s.values.get? name = some v → v.toHandle? = some d → Reads s d
  | held {name : String} {p : Persistent Datum} : s.handles.get? name = some p → Reads s p.held

/-- A persistent handle that a name or a value holds. -/
inductive Holds (s : Session) : Persistent Datum → Prop where
  | named {name : String} {p : Persistent Datum} : s.handles.get? name = some p → Holds s p
  | inside {name : String} {p : Persistent Datum} :
      s.values.get? name = some (.persistent p) → Holds s p

/-- One change of a session, with what it tells of the registry. -/
inductive Move : Session → Option Event → Session → Prop where
  /-- Another reference to a datum. -/
  | share {s : Session} {d : Datum} (name : String) :
      s.Reads d → Move s none ((s.retain d.refs).putDatum name d)
  | create (s : Session) (seed : Seed) (name : String) :
      Move s none ((s.create seed).1.putDatum name (s.create seed).2)
  | dropDatum (s : Session) (name : String) : Move s none (s.dropDatum name)
  | set {s : Session} {target source : String} {d value : Datum} (key : String) :
      s.data.get? target = some d → s.data.get? source = some value →
      Move s none { s with heap := s.heap.set d key value }
  | register (s : Session) (name : String) :
      Move s (some (.registered s.heap.register.2.1))
        (putDatum { s with heap := s.heap.register.1 } name s.heap.register.2.2)
  /-- A native object is released and its wrapper stored. -/
  | unregister {s : Session} {id : ObjectId} {heap : Heap} {d : Datum} (name : String) :
      s.heap.unregister id = .ok (heap, d) →
      Move s (some (.released id)) (putDatum { s with heap } name d)
  /-- A native object is released and its wrapper let go. -/
  | discard {s : Session} {id : ObjectId} {heap : Heap} {d : Datum} :
      s.heap.unregister id = .ok (heap, d) →
      Move s (some (.released id)) (release { s with heap } d.refs)
  /-- A value that holds no reference. -/
  | plain {s : Session} {v : Value Datum} (name : String) :
      v.refs = [] → Move s none (s.putValue name v)
  /-- A new handle on a datum. -/
  | keep {s : Session} {source : String} {d : Datum} (name : String) (lifetime : Lifetime) :
      s.data.get? source = some d →
      Move s none (putValue { s with heap := (s.heap.keep lifetime d).1 } name
        (s.heap.keep lifetime d).2)
  | copy {s : Session} {source : String} {v : Value Datum} (name : String) :
      s.values.get? source = some v → Move s none ((s.retain v.refs).putValue name v)
  /-- A value with a copy of a persistent handle. -/
  | enclose {s : Session} {p : Persistent Datum} (name : String) :
      s.Holds p → Move s none ((s.retain p.refs).putValue name (.persistent p))
  | dropValue (s : Session) (name : String) : Move s none (s.dropValue name)
  /-- A new persistent handle on a datum. -/
  | hold {s : Session} {source : String} {d : Datum} (name : String) :
      s.data.get? source = some d →
      Move s none (putHandle { s with heap := (s.heap.hold d).1 } name (s.heap.hold d).2)
  /-- A copy of a persistent handle. -/
  | handle {s : Session} {p : Persistent Datum} (name : String) :
      s.Holds p → Move s none ((s.retain p.refs).putHandle name p)
  | dropHandle (s : Session) (name : String) : Move s none (s.dropHandle name)

/-- Moves one after the other, with all that they tell. -/
inductive Moves : Session → List Event → Session → Prop where
  | refl (s : Session) : Moves s [] s
  | step {s t u : Session} {event : Option Event} {more : List Event} :
      Move s event t → Moves t more u → Moves s (event.toList ++ more) u

theorem Move.moves {s t : Session} {event : Option Event} (h : s.Move event t) :
    s.Moves event.toList t := by
  simpa using Moves.step h (.refl t)

theorem Moves.trans {s t u : Session} {told more : List Event} (h : s.Moves told t)
    (h' : t.Moves more u) : s.Moves (told ++ more) u := by
  induction h with
  | refl => exact h'
  | step hmove _ ih =>
    rw [List.append_assoc]
    exact .step hmove (ih h')

/-- **What every move keeps, moves keep.**  An invariant of sessions is proved by one case for each
move and carried along runs by this. -/
theorem Moves.invariant {I : Session → Prop}
    (hmove : ∀ {s t : Session} {event : Option Event}, s.Move event t → I s → I t)
    {s t : Session} {told : List Event} (h : s.Moves told t) (hs : I s) : I t := by
  induction h with
  | refl => exact hs
  | step hm _ ih => exact ih (hmove hm hs)

/-! ## 3. Moves of a command -/

variable {s s' : Session} {reply : Reply}

/-- The datum of a value is made anew, or is one that the session knows. -/
theorem reads_toHandle {name : String} {v : Value Datum} (h : s.values.get? name = some v) :
    s.Reads (v.toHandle s.heap.runtime) := by
  cases v with
  | object id =>
    show s.Reads ((s.heap.wrapper? id).getD (.atom .null))
    cases hid : s.heap.wrapper? id with
    | none => exact .atom .null
    | some d => exact .wrapper hid
  | transient d => exact .kept h rfl
  | persistent p => exact .kept h rfl
  | undefined | null | boolean | integer | long | number | date | string | type | marker =>
    exact .atom _

theorem reads_apply {names : List String} {arguments : List Datum} (body : Body)
    (h : names.mapM s.data.get? = some arguments) : s.Reads (body.apply arguments) := by
  cases body with
  | noop | argc | sum | typeof | join => exact .atom _
  | first =>
    cases arguments with
    | nil => exact .atom _
    | cons d rest =>
      cases names with
      | nil => simp at h
      | cons name others =>
        rw [List.mapM_cons] at h
        obtain ⟨e, he, h⟩ := Option.bind_eq_some_iff.mp h
        obtain ⟨more, -, h⟩ := Option.bind_eq_some_iff.mp h
        cases h
        exact .named he

theorem reads_call {names : List String} {arguments : List Datum} {d result : Datum}
    (h : names.mapM s.data.get? = some arguments) (hcall : s.heap.call d arguments = some result) :
    s.Reads result := by
  unfold Heap.call at hcall
  split at hcall
  · split at hcall
    · cases hcall
      exact reads_apply _ h
    · contradiction
  · contradiction

theorem refs_ofNumber (x : Double) : (Value.ofNumber x : Value Datum).refs = [] := by
  unfold Value.ofNumber
  split
  · split
    · unfold Value.ofInteger
      split <;> rfl
    · rfl
  · rfl

theorem refs_of_recognise {h : Heap} {d : Datum} {v : Value Datum}
    (hv : Value.recognise h.runtime d = some v) : v.refs = [] := by
  cases d with
  | atom a =>
    cases a with
    | number x | numberObject x =>
      cases hv
      exact refs_ofNumber x
    | empty | undefined | null | boolean | string | date | booleanObject | stringObject =>
      cases hv
      rfl
  | object r =>
    obtain ⟨id, -, rfl⟩ := Option.map_eq_some_iff.mp hv
    rfl
  | function r =>
    have hnone : Value.recognise h.runtime (.function r) = none := rfl
    rw [hnone] at hv
    contradiction

/-- Classifying stores a value without references, or a new handle. -/
theorem move_classify {source : String} {d : Datum} (target : String) (lifetime : Lifetime)
    (h : s.data.get? source = some d) : s.Move none (s.classify target lifetime d).1 := by
  unfold classify Heap.classify
  cases hv : Value.recognise s.heap.runtime d with
  | some v => exact .plain target (refs_of_recognise hv)
  | none => exact .keep target lifetime h

theorem moves_performData {command : DataCommand} (h : s.performData command = some (s', reply)) :
    s.Moves ((Command.data command).event? reply).toList s' := by
  cases command with
  | create target seed =>
    cases h
    exact (Move.create s seed target).moves
  | copy source target =>
    obtain ⟨d, hd, h⟩ := Option.bind_eq_some_iff.mp h
    cases h
    exact (Move.share target (.named hd)).moves
  | drop name =>
    cases h
    exact (Move.dropDatum s name).moves
  | get source key target =>
    obtain ⟨d, hd, h⟩ := Option.bind_eq_some_iff.mp h
    cases h
    exact (Move.share target (.property key hd)).moves
  | set target key source =>
    obtain ⟨d, hd, h⟩ := Option.bind_eq_some_iff.mp h
    obtain ⟨value, hvalue, h⟩ := Option.bind_eq_some_iff.mp h
    cases h
    exact (Move.set key hd hvalue).moves
  | call source arguments target =>
    obtain ⟨d, -, h⟩ := Option.bind_eq_some_iff.mp h
    obtain ⟨values, hvalues, h⟩ := Option.bind_eq_some_iff.mp h
    split at h
    · cases h
      exact .refl s
    · next hcall =>
      cases h
      exact (Move.share target (reads_call hvalues hcall)).moves
  | compare a b =>
    obtain ⟨d, -, h⟩ := Option.bind_eq_some_iff.mp h
    obtain ⟨e, -, h⟩ := Option.bind_eq_some_iff.mp h
    cases h
    exact .refl s
  | examine name =>
    obtain ⟨d, -, h⟩ := Option.bind_eq_some_iff.mp h
    cases h
    exact .refl s

theorem moves_performObject {command : ObjectCommand}
    (h : s.performObject command = some (s', reply)) :
    s.Moves ((Command.object command).event? reply).toList s' := by
  cases command with
  | register target =>
    cases h
    exact (Move.register s target).moves
  | unregister id target =>
    simp only [performObject] at h
    split at h
    · cases h
      exact .refl s
    · next heap d hu =>
      split at h
      · next name =>
        cases h
        exact (Move.unregister name hu).moves
      · cases h
        exact (Move.discard hu).moves
  | isLive id =>
    cases h
    exact .refl s
  | liveCount =>
    cases h
    exact .refl s
  | resolve source =>
    obtain ⟨d, -, h⟩ := Option.bind_eq_some_iff.mp h
    cases h
    exact .refl s
  | wrap id target =>
    simp only [performObject] at h
    split at h
    · cases h
      exact .refl s
    · next d hd =>
      cases h
      exact (Move.share target (.wrapper hd)).moves

theorem refs_ofPlain (v : Value Empty) : (Value.ofPlain v : Value Datum).refs = [] := by
  cases v with
  | transient e => exact e.elim
  | persistent p => exact p.held.elim
  | undefined | null | boolean | integer | long | number | date | string | object | type
  | marker => rfl

theorem moves_performValue {command : ValueCommand}
    (h : s.performValue command = some (s', reply)) :
    s.Moves ((Command.value command).event? reply).toList s' := by
  cases command with
  | plain target value =>
    cases h
    exact (Move.plain target (refs_ofPlain value)).moves
  | keep target lifetime source =>
    obtain ⟨d, hd, h⟩ := Option.bind_eq_some_iff.mp h
    cases h
    exact (Move.keep target lifetime hd).moves
  | classify source target lifetime =>
    obtain ⟨d, hd, h⟩ := Option.bind_eq_some_iff.mp h
    cases h
    exact (move_classify target lifetime hd).moves
  | assign target source lifetime =>
    obtain ⟨-, -, h⟩ := Option.bind_eq_some_iff.mp h
    obtain ⟨d, hd, h⟩ := Option.bind_eq_some_iff.mp h
    cases h
    exact (Move.plain target (v := .undefined) rfl).moves.trans
      (move_classify (s := s.putValue target .undefined) target lifetime hd).moves
  | toHandle source target =>
    obtain ⟨v, hv, h⟩ := Option.bind_eq_some_iff.mp h
    cases h
    exact (Move.share target (reads_toHandle hv)).moves
  | copy source target =>
    obtain ⟨v, hv, h⟩ := Option.bind_eq_some_iff.mp h
    cases h
    exact (Move.copy target hv).moves
  | drop name =>
    cases h
    exact (Move.dropValue s name).moves
  | clear name =>
    obtain ⟨v, -, h⟩ := Option.bind_eq_some_iff.mp h
    cases h
    exact (Move.plain name (v := .undefined) rfl).moves
  | append name suffix =>
    obtain ⟨v, -, h⟩ := Option.bind_eq_some_iff.mp h
    split at h
    · cases h
      exact .refl s
    · next w hw =>
      cases h
      refine (Move.plain name ?_).moves
      cases v with
      | string => cases hw; rfl
      | undefined | null | boolean | integer | long | number | date | object | transient
      | persistent | type | marker => contradiction
  | act name action =>
    obtain ⟨v, -, h⟩ := Option.bind_eq_some_iff.mp h
    split at h
    · cases h
      exact (Move.plain name (v := .date _) rfl).moves
    · cases h
      exact .refl s
  | compare a b =>
    obtain ⟨v, -, h⟩ := Option.bind_eq_some_iff.mp h
    obtain ⟨w, -, h⟩ := Option.bind_eq_some_iff.mp h
    cases h
    exact .refl s
  | examine name =>
    obtain ⟨v, -, h⟩ := Option.bind_eq_some_iff.mp h
    cases h
    exact .refl s

theorem moves_performHandle {command : HandleCommand}
    (h : s.performHandle command = some (s', reply)) :
    s.Moves ((Command.handle command).event? reply).toList s' := by
  cases command with
  | hold source target =>
    obtain ⟨d, hd, h⟩ := Option.bind_eq_some_iff.mp h
    cases h
    exact (Move.hold target hd).moves
  | copy source target =>
    obtain ⟨p, hp, h⟩ := Option.bind_eq_some_iff.mp h
    cases h
    exact (Move.handle target (.named hp)).moves
  | take value target =>
    obtain ⟨v, hv, h⟩ := Option.bind_eq_some_iff.mp h
    split at h
    · cases h
      exact (Move.handle target (.inside hv)).moves
    · cases h
      exact .refl s
  | toValue source target =>
    obtain ⟨p, hp, h⟩ := Option.bind_eq_some_iff.mp h
    cases h
    exact (Move.enclose target (.named hp)).moves
  | get source target =>
    obtain ⟨p, hp, h⟩ := Option.bind_eq_some_iff.mp h
    cases h
    exact (Move.share target (.held hp)).moves
  | drop name =>
    cases h
    exact (Move.dropHandle s name).moves
  | compare a b =>
    obtain ⟨p, -, h⟩ := Option.bind_eq_some_iff.mp h
    obtain ⟨q, -, h⟩ := Option.bind_eq_some_iff.mp h
    cases h
    exact .refl s
  | examine name =>
    obtain ⟨p, -, h⟩ := Option.bind_eq_some_iff.mp h
    cases h
    exact .refl s

/-- **A command makes moves, and its reply tells what they tell.**  Most commands are one move or
none; an assignment clears the slot and stores in it after that.  A command on a name that stands
for nothing is not performed and has no reply. -/
theorem moves_perform {command : Command} (h : s.perform command = some (s', reply)) :
    s.Moves (command.event? reply).toList s' := by
  cases command with
  | data command => exact moves_performData h
  | object command => exact moves_performObject h
  | value command => exact moves_performValue h
  | handle command => exact moves_performHandle h

/-- **A run makes moves, and its replies tell what they tell.** -/
theorem moves_run {commands : List Command} {replies : List Reply}
    (h : s.run commands = some (s', replies)) : s.Moves (events commands replies) s' := by
  induction commands generalizing s replies with
  | nil =>
    cases h
    exact .refl _
  | cons command rest ih =>
    obtain ⟨⟨t, reply⟩, hperform, h⟩ := Option.bind_eq_some_iff.mp h
    obtain ⟨⟨u, more⟩, hrun, h⟩ := Option.bind_eq_some_iff.mp h
    cases h
    have hevents : events (command :: rest) (reply :: more) =
        (command.event? reply).toList ++ events rest more := by
      rw [events, List.zip_cons_cons, List.filterMap_cons]
      cases command.event? reply <;> rfl
    rw [hevents]
    exact (moves_perform hperform).trans (ih hrun)

end Session
end Interchange.Script
