/-
# The history of the registry

What a run told of the registry decides what is registered after it.  Numbers are given in order and
none is given twice, so a number that was released stands for nothing ever after: it has no wrapper,
values that name it become null, and no datum is ever classified as it.

* `Heap.Tells`: what one event says of the registry before and after;
* `Move.tells`: every move does what it tells;
* `Recorded`: the registry is what its history says;
* `registry_run`: after every run the registry is what the replies of the run say.
-/
import Mathlib.Data.List.Nodup
import Mathlib.Data.List.Range
import Interchange.Proofs.Script.Registry
import Interchange.Proofs.Value.Number

namespace Interchange

namespace Script

/-! ## 1. Histories -/

/-- The numbers that a history gave, in order. -/
def registered (history : List Event) : List ObjectId :=
  history.filterMap fun
    | .registered id => some id
    | .released _ => none

/-- The numbers that a history released, in order. -/
def released (history : List Event) : List ObjectId :=
  history.filterMap fun
    | .registered _ => none
    | .released id => some id

theorem registered_append (past more : List Event) :
    registered (past ++ more) = registered past ++ registered more := List.filterMap_append

theorem released_append (past more : List Event) :
    released (past ++ more) = released past ++ released more := List.filterMap_append

namespace Heap

/-- What an event says of the registry before and after it: what is registered, under which number,
and which the last number is.  Where nothing is told nothing of this changes. -/
def Tells (h h' : Heap) : Option Event → Prop
  | none => h'.lastId = h.lastId ∧ ∀ id, h'.isLive id = h.isLive id
  | some (.registered id) => id = ⟨h.lastId + 1⟩ ∧ h'.lastId = h.lastId + 1 ∧
      ∀ id', h'.isLive id' = (decide (id' = id) || h.isLive id')
  | some (.released id) => h.isLive id = true ∧ h'.lastId = h.lastId ∧
      ∀ id', h'.isLive id' = (decide (id' ≠ id) && h.isLive id')

theorem tells_store (h : Heap) (store : Store) : h.Tells { h with store } none :=
  ⟨rfl, fun _ => rfl⟩

theorem tells_set (h : Heap) (d : Datum) (key : String) (value : Datum) :
    h.Tells (h.set d key value) none := by
  unfold set
  split
  · split
    · exact h.tells_store _
    · exact ⟨rfl, fun _ => rfl⟩
  · exact ⟨rfl, fun _ => rfl⟩

theorem tells_keep (h : Heap) (lifetime : Lifetime) (d : Datum) :
    h.Tells (h.keep lifetime d).1 none := by
  cases lifetime <;> exact ⟨rfl, fun _ => rfl⟩

theorem tells_unregister {h h' : Heap} {id : ObjectId} {d : Datum}
    (hu : h.unregister id = .ok (h', d)) : h.Tells h' (some (.released id)) := by
  have hlive := isLive_unregister hu
  obtain ⟨r, hget, rfl, -⟩ := exists_of_unregister hu
  refine ⟨?_, rfl, hlive⟩
  rw [isLive, Table.contains, hget]
  rfl

end Heap

/-- **Every move does what it tells.**  Only three moves touch the registry; the others change cells
and names, and `lastId` and the table stay as they are. -/
theorem Session.Move.tells {s t : Session} {event : Option Event} (h : s.Move event t) :
    s.heap.Tells t.heap event := by
  cases h with
  | share | dropDatum | plain | copy | enclose | dropValue | hold | handle | dropHandle =>
    exact s.heap.tells_store _
  | create seed name => cases seed <;> exact s.heap.tells_store _
  | set key => exact s.heap.tells_set _ key _
  | register name => exact ⟨rfl, rfl, fun id => s.heap.isLive_register id⟩
  | unregister _ hu | discard hu =>
    have ht := Heap.tells_unregister hu
    exact ht
  | keep name lifetime => exact s.heap.tells_keep lifetime _

/-! ## 2. The registry is what its history says -/

namespace Heap

/-- The registry after a history: numbers were given in order, and what is registered was given and
not released.  A released number was given before, so that a release of a number yet to come cannot
stand in a history. -/
structure Recorded (h : Heap) (history : List Event) : Prop where
  given : registered history = (List.range h.lastId).map fun n => ⟨n + 1⟩
  released_given : ∀ id ∈ released history, id ∈ registered history
  isLive_iff : ∀ id, h.isLive id = true ↔ id ∈ registered history ∧ id ∉ released history

theorem recorded_default : (default : Heap).Recorded [] where
  given := rfl
  released_given _ h := absurd h List.not_mem_nil
  isLive_iff id := by simp [isLive, Table.contains, registered, default]

theorem Recorded.next_not_given {h : Heap} {history : List Event} (hr : h.Recorded history) :
    (⟨h.lastId + 1⟩ : ObjectId) ∉ registered history := by
  rw [hr.given, List.mem_map]
  rintro ⟨n, hn, heq⟩
  have hlt := List.mem_range.mp hn
  have hnumber : n + 1 = h.lastId + 1 := congrArg ObjectId.number heq
  omega

/-- Numbers are never given twice, since they were given in order. -/
theorem Recorded.nodup {h : Heap} {history : List Event} (hr : h.Recorded history) :
    (registered history).Nodup := by
  rw [hr.given]
  refine List.nodup_range.map fun m n hmn => ?_
  exact Nat.succ.inj (congrArg ObjectId.number hmn)

/-- **One event more.**  A number that is given is the next one, which no history holds yet, and a
number that is released was registered, hence given and not released before. -/
theorem Recorded.tells {h h' : Heap} {past : List Event} {event : Option Event}
    (hr : h.Recorded past) (ht : h.Tells h' event) : h'.Recorded (past ++ event.toList) := by
  match event, ht with
  | none, ⟨hlast, hlive⟩ =>
    rw [Option.toList_none, List.append_nil]
    refine ⟨?_, hr.released_given, fun id => ?_⟩
    · rw [hlast, hr.given]
    · rw [hlive, hr.isLive_iff]
  | some (.registered id), ⟨hid, hlast, hlive⟩ =>
    have hgiven : registered (past ++ [.registered id]) = registered past ++ [id] :=
      registered_append ..
    have hreleased : released (past ++ [.registered id]) = released past :=
      (released_append ..).trans (List.append_nil _)
    have hnew : id ∉ registered past := hid ▸ hr.next_not_given
    refine ⟨?_, fun id' hid' => ?_, fun id' => ?_⟩
    all_goals rw [Option.toList_some, hgiven]
    · rw [hlast, List.range_succ, List.map_append, hr.given, hid]
      rfl
    · rw [Option.toList_some, hreleased] at hid'
      exact List.mem_append_left _ (hr.released_given id' hid')
    · rw [hreleased, hlive, Bool.or_eq_true, decide_eq_true_eq, hr.isLive_iff, List.mem_append,
        List.mem_singleton]
      constructor
      · rintro (rfl | ⟨hg, hn⟩)
        · exact ⟨.inr rfl, fun hrel => hnew (hr.released_given _ hrel)⟩
        · exact ⟨.inl hg, hn⟩
      · rintro ⟨hg | rfl, hn⟩
        · exact .inr ⟨hg, hn⟩
        · exact .inl rfl
  | some (.released id), ⟨hlive, hlast, hafter⟩ =>
    have hgiven : registered (past ++ [.released id]) = registered past :=
      (registered_append ..).trans (List.append_nil _)
    have hreleased : released (past ++ [.released id]) = released past ++ [id] :=
      released_append ..
    refine ⟨?_, fun id' hid' => ?_, fun id' => ?_⟩
    all_goals rw [Option.toList_some, hgiven]
    · rw [hlast, hr.given]
    · rw [Option.toList_some, hreleased] at hid'
      rcases List.mem_append.mp hid' with hid' | hid'
      · exact hr.released_given id' hid'
      · rw [List.mem_singleton.mp hid']
        exact ((hr.isLive_iff id).mp hlive).1
    · rw [hreleased, hafter, Bool.and_eq_true, decide_eq_true_eq, hr.isLive_iff, List.mem_append,
        List.mem_singleton, not_or]
      exact ⟨fun ⟨hne, hg, hn⟩ => ⟨hg, hn, hne⟩, fun ⟨hg, hn, hne⟩ => ⟨hne, hg, hn⟩⟩

/-- As many numbers are registered as were given and not released. -/
theorem Recorded.liveCount_eq {h : Heap} {history : List Event} (hr : h.Recorded history) :
    h.liveCount = ((registered history).filter fun id => id ∉ released history).length := by
  have hkeys : (h.wrappers.entries.map Prod.fst).Perm
      ((registered history).filter fun id => id ∉ released history) := by
    rw [List.perm_ext_iff_of_nodup h.wrappers.nodup (hr.nodup.filter _)]
    intro id
    rw [h.wrappers.mem_keys_iff, List.mem_filter, decide_eq_true_eq]
    exact hr.isLive_iff id
  rw [liveCount, Table.size, ← List.length_map Prod.fst, hkeys.length_eq]

end Heap

/-- The registry after moves is what they told of it. -/
theorem Session.Moves.recorded {s t : Session} {past told : List Event} (h : s.Moves told t)
    (hr : s.heap.Recorded past) : t.heap.Recorded (past ++ told) := by
  induction h generalizing past with
  | refl =>
    rw [List.append_nil]
    exact hr
  | step hmove _ ih =>
    rw [← List.append_assoc]
    exact ih (hr.tells hmove.tells)

/-! ## 3. Numbers that are not registered -/

namespace Heap

/-- Only a registered number is a datum ever classified as. -/
theorem isLive_of_classify {h : Heap} {lifetime : Lifetime} {d : Datum} {id : ObjectId}
    (hc : (h.classify lifetime d).2 = .object id) : h.isLive id = true := by
  have hkeep : (h.keep lifetime d).2 ≠ .object id := by
    cases lifetime <;> exact fun heq => by contradiction
  unfold classify at hc
  split at hc
  · next v hv =>
    dsimp only at hc
    subst hc
    cases d with
    | atom a =>
      cases a with
      | number x | numberObject x =>
        have hx : (Value.ofNumber x : Value Datum) = .object id := Option.some.inj hv
        have hdouble := Value.toDouble?_ofNumber (H := Datum) x
        rw [hx] at hdouble
        contradiction
      | empty | undefined | null | boolean | string | date | booleanObject | stringObject =>
        cases hv
    | function r =>
      have hnone : Value.recognise h.runtime (.function r) = none := rfl
      rw [hnone] at hv
      contradiction
    | object r =>
      obtain ⟨id', hid', heq⟩ := Option.map_eq_some_iff.mp hv
      cases heq
      exact (Option.filter_eq_some_iff.mp hid').2
  · exact absurd hc hkeep

/-- A number that is not registered has no wrapper, and values that name it become null. -/
theorem toHandle_of_not_isLive {h : Heap} {id : ObjectId} (hn : h.isLive id = false) :
    h.wrapper? id = none ∧ (Value.object id).toHandle h.runtime = .atom .null := by
  have hwrapper : h.wrapper? id = none := by
    rw [isLive, Table.contains, Option.isSome_eq_false_iff, Option.isNone_iff_eq_none] at hn
    rw [wrapper?, hn]
    rfl
  exact ⟨hwrapper, Value.toHandle_object_stale hwrapper⟩

end Heap

/-- **After every run the registry is what the replies of the run say.**  No number was given twice,
and the next registration gives one that was never given; the registered numbers are those that were
given and not released since; a release of any other number is rejected and changes nothing; and a
number that was released at any time has no wrapper, becomes null, and is what no datum is
classified as. -/
theorem registry_run {commands : List Command} {replies : List Reply} {s : Session}
    (h : (default : Session).run commands = some (s, replies)) :
    let history := events commands replies
    (registered history).Nodup ∧
      (∀ target, ∃ t id wrapper live, id ∉ registered history ∧
        s.perform (.object (.register target)) = some (t, .registered id wrapper live)) ∧
      (∀ id, s.heap.isLive id = true ↔ id ∈ registered history ∧ id ∉ released history) ∧
      s.heap.liveCount =
        ((registered history).filter fun id => id ∉ released history).length ∧
      (∀ id, s.heap.isLive id = false →
        s.heap.unregister id = .error (.unknownObject id) ∧
        ∀ target, s.perform (.object (.unregister id target)) =
          some (s, .rejected (.unknownObject id))) ∧
      ∀ id ∈ released history, s.heap.wrapper? id = none ∧
        (Value.object id).toHandle s.heap.runtime = .atom .null ∧
        ∀ lifetime d, (s.heap.classify lifetime d).2 ≠ .object id := by
  intro history
  have hr : s.heap.Recorded history := (Session.moves_run h).recorded Heap.recorded_default
  refine ⟨hr.nodup, fun target => ⟨_, _, _, _, hr.next_not_given, rfl⟩, hr.isLive_iff,
    hr.liveCount_eq, fun id hid => ?_, fun id hid => ?_⟩
  · have herror := (s.heap.unregister_eq_error_iff id _).mpr ⟨rfl, hid⟩
    refine ⟨herror, fun target => ?_⟩
    simp only [Session.perform, Session.performObject, herror]
  · have hdead : s.heap.isLive id = false := by
      rw [← Bool.not_eq_true, hr.isLive_iff]
      exact fun hlive => hlive.2 hid
    obtain ⟨hwrapper, hnull⟩ := Heap.toHandle_of_not_isLive hdead
    refine ⟨hwrapper, hnull, fun lifetime d hc => ?_⟩
    rw [Heap.isLive_of_classify hc] at hdead
    contradiction

/-- Of three objects the first is released before the third is registered; a second release of it is
rejected, and its wrapper, which has a name still, is classified as a handle. -/
theorem registry_run_after_release :
    let commands : List Command := [.object (.register "a"), .object (.register "b"),
      .object (.unregister ⟨1⟩ none), .object (.register "c"), .object (.unregister ⟨1⟩ none)]
    ∃ s replies, (default : Session).run commands = some (s, replies) ∧
      registered (events commands replies) = [⟨1⟩, ⟨2⟩, ⟨3⟩] ∧
      released (events commands replies) = [⟨1⟩] ∧ s.heap.liveCount = 2 ∧
      s.data.get? "a" = some (.object 0) ∧
      (∀ lifetime, (s.heap.classify lifetime (.object 0)).2 ≠ .object ⟨1⟩) ∧
      s.heap.unregister ⟨1⟩ = .error (.unknownObject ⟨1⟩) := by
  intro commands
  have hfacts : ((default : Session).run commands).map (fun p =>
      (registered (events commands p.2), released (events commands p.2),
        p.1.data.get? "a")) = some ([⟨1⟩, ⟨2⟩, ⟨3⟩], [⟨1⟩], some (.object 0)) := by
    decide +kernel
  obtain ⟨⟨s, replies⟩, hrun, hvalues⟩ := Option.map_eq_some_iff.mp hfacts
  simp only [Prod.mk.injEq] at hvalues
  obtain ⟨hgiven, hreleased, hname⟩ := hvalues
  obtain ⟨-, -, hlive, hcount, hrejected, hgone⟩ := registry_run hrun
  rw [hgiven, hreleased] at hcount
  have hone : (⟨1⟩ : ObjectId) ∈ released (events commands replies) := by
    rw [hreleased]
    exact List.mem_cons_self
  have hdead : s.heap.isLive ⟨1⟩ = false := by
    rw [← Bool.not_eq_true, hlive]
    exact fun h => h.2 hone
  exact ⟨s, replies, hrun, hgiven, hreleased, hcount, hname,
    fun lifetime => (hgone ⟨1⟩ hone).2.2 lifetime _, (hrejected ⟨1⟩ hdead).1⟩

end Script
end Interchange
