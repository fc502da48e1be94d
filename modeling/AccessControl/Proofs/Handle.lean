import AccessControl.Connection
import Mathlib.Data.List.Induction

/-!
# When there is a handle on the database

A connection is asked to connect, to close, and for a handle, in any order, and the
database answers or does not.  While it is connected it gives the handle of the latest
connect that succeeded.  A connect that fails leaves the handle of its client behind,
so that right after it, and only then, there is a handle without a connection:
`handle_iff_connected_iff`.
-/

namespace AccessControl

namespace Connection

theorem database_eq_ok_iff {connection : Connection} {handle : Handle} :
    connection.database = .ok handle ↔ connection.handle = some handle := by
  unfold database
  cases connection.handle <;> simp

theorem database_eq_error_iff {connection : Connection} {failure : Failure} :
    connection.database = .error failure ↔
      failure = .notConnected ∧ connection.handle = none := by
  unfold database
  cases connection.handle with
  | none =>
      simp [eq_comm]
  | some handle =>
      simp

/-- What changes a connection; to look whether there is a handle changes nothing. -/
inductive Call where
  | connect (database : String) (ping : Ping)
  | close
  | obtain (database : String) (ping : Ping)

namespace Call

/-- What a call gives.  Only who obtains is answered with a handle. -/
def run (call : Call) (connection : Connection) : Step (Option Handle) :=
  match call with
  | connect name ping =>
      let (outcome, records, next) := connection.connect name ping
      (outcome.map fun _ => none, records, next)
  | close =>
      let (outcome, records, next) := connection.close
      (outcome.map fun _ => none, records, next)
  | obtain name ping =>
      let (outcome, records, next) := connection.obtain name ping
      (outcome.map some, records, next)

def outcome (call : Call) (connection : Connection) :
    Except Failure (Option Handle) :=
  (call.run connection).1

def after (call : Call) (connection : Connection) : Connection :=
  (call.run connection).2.2

/-- The database that a call wants to be connected to, and what it answers. -/
def target? : Call → Option (String × Ping)
  | connect name ping => some (name, ping)
  | close => none
  | obtain name ping => some (name, ping)

/-- The call wants a connection, and the database answers. -/
def Answered (call : Call) : Prop :=
  ∃ name, call.target? = some (name, none)

/-- The handle of the client that a call connects: there is none where the connection
exists already, or the database does not answer. -/
def connects? (call : Call) (connection : Connection) : Option Handle :=
  match call.target? with
  | some (name, none) =>
      if connection.connected then none else some ⟨connection.opened, name⟩
  | _ => none

end Call

/-- The connection that calls lead to from the beginning. -/
def run (calls : List Call) : Connection :=
  calls.foldl (fun connection call => call.after connection) fresh

/-- The handles of the connects that succeed, one call after the other. -/
def connects (connection : Connection) : List Call → List Handle
  | [] => []
  | call :: rest =>
      (call.connects? connection).toList ++ (call.after connection).connects rest

namespace Call

variable {call : Call} {connection : Connection} {name fault : String}

theorem ne_close_of_target {ping : Ping} (target : call.target? = some (name, ping)) :
    call ≠ .close := by
  rintro rfl
  cases target

theorem connects?_of_connected (connected : connection.connected = true) :
    call.connects? connection = none := by
  unfold connects?
  split
  · exact if_pos connected
  · rfl

theorem connects?_of_answered
    (target : call.target? = some (name, none))
    (unconnected : connection.connected = false) :
    call.connects? connection = some ⟨connection.opened, name⟩ := by
  unfold connects?
  rw [target]
  exact if_neg (by rw [unconnected]; exact Bool.false_ne_true)

theorem connects?_of_unanswered
    (target : call.target? = some (name, some fault)) :
    call.connects? connection = none := by
  unfold connects?
  rw [target]

end Call

/-! ## One call -/

/-- A connection has a handle, and every handle is one of the clients made. -/
structure Sound (connection : Connection) : Prop where
  held : connection.connected = true → ∃ handle, connection.handle = some handle
  made : ∀ handle, connection.handle = some handle →
    handle.serial < connection.opened

/-- The connection with a new client. -/
def renewed (connection : Connection) (name : String) (connected : Bool) :
    Connection :=
  ⟨some ⟨connection.opened, name⟩, connected, connection.opened + 1,
    connection.closed⟩

/-- All that a call can do. -/
inductive Call.Effect (call : Call) (connection : Connection) : Prop
  /-- There is no connection and no handle any more. -/
  | closed (closes : call = .close)
      (done : call.outcome connection = .ok none)
      (handle : (call.after connection).handle = none)
      (connected : (call.after connection).connected = false)
      (opened : (call.after connection).opened = connection.opened)
  /-- The connection exists already. -/
  | kept (opens : call ≠ .close) (connected : connection.connected = true)
      (done : ∃ answer, call.outcome connection = .ok answer)
      (same : call.after connection = connection)
  | succeeded (name : String) (target : call.target? = some (name, none))
      (unconnected : connection.connected = false)
      (done : ∃ answer, call.outcome connection = .ok answer)
      (next : call.after connection = connection.renewed name true)
  | failed (name fault : String)
      (target : call.target? = some (name, some fault))
      (unconnected : connection.connected = false)
      (done : call.outcome connection = .error (.connection fault))
      (next : call.after connection = connection.renewed name false)

theorem connect_of_connected
    {connection : Connection} (connected : connection.connected = true)
    (name : String) (ping : Ping) :
    connection.connect name ping = (.ok (), [], connection) := by
  unfold connect
  rw [if_pos connected]

theorem connect_answered
    {connection : Connection} (unconnected : connection.connected = false)
    (name : String) :
    ∃ records,
      connection.connect name none =
        (.ok (), records, connection.renewed name true) := by
  obtain ⟨handle, connected, opened, closed⟩ := connection
  cases unconnected
  exact ⟨_, rfl⟩

theorem connect_unanswered
    {connection : Connection} (unconnected : connection.connected = false)
    (name fault : String) :
    ∃ records,
      connection.connect name (some fault) =
        (.error (.connection fault), records, connection.renewed name false) := by
  obtain ⟨handle, connected, opened, closed⟩ := connection
  cases unconnected
  exact ⟨_, rfl⟩

theorem effect_close {connection : Connection} (sound : connection.Sound) :
    Call.close.Effect connection := by
  obtain ⟨handle, connected, opened, closed⟩ := connection
  cases handle with
  | some handle =>
      exact .closed rfl rfl rfl rfl rfl
  | none =>
      have unconnected : connected = false := by
        cases connected with
        | false =>
            rfl
        | true =>
            obtain ⟨handle, absent⟩ := sound.held rfl
            cases absent
      exact .closed rfl rfl rfl unconnected rfl

/-- Who obtains a handle connects first, and ends as the connecting ends. -/
theorem Call.outcome_of_target
    {call : Call} {name : String} {ping : Ping}
    (target : call.target? = some (name, ping)) (connection : Connection) :
    call.after connection = (connection.connect name ping).2.2 ∧
      (∀ failure,
        (connection.connect name ping).1 = .error failure →
          call.outcome connection = .error failure) ∧
      ∀ handle,
        (connection.connect name ping).1 = .ok () →
          (connection.connect name ping).2.2.handle = some handle →
            ∃ answer, call.outcome connection = .ok answer := by
  cases call with
  | close =>
      cases target
  | connect =>
      cases target
      simp only [Call.after, Call.outcome, Call.run]
      generalize connection.connect name ping = step
      obtain ⟨outcome, records, next⟩ := step
      refine ⟨trivial, fun failure failed => ?_, fun handle done _ => ?_⟩
      · cases failed
        rfl
      · cases done
        exact ⟨none, rfl⟩
  | obtain =>
      cases target
      simp only [Call.after, Call.outcome, Call.run, Connection.obtain]
      generalize connection.connect name ping = step
      obtain ⟨outcome, records, next⟩ := step
      refine ⟨?_, fun failure failed => ?_, fun handle done held => ?_⟩
      · cases outcome <;> rfl
      · cases failed
        rfl
      · cases done
        exact ⟨some handle, congrArg _ (database_eq_ok_iff.mpr held)⟩

theorem effect_of_target
    {connection : Connection} (sound : connection.Sound) {call : Call}
    {name : String} {ping : Ping}
    (target : call.target? = some (name, ping)) : call.Effect connection := by
  obtain ⟨next, fails, succeeds⟩ := Call.outcome_of_target target connection
  cases connected : connection.connected with
  | true =>
      obtain ⟨handle, held⟩ := sound.held connected
      rw [connect_of_connected connected] at next succeeds
      exact
        .kept (Call.ne_close_of_target target) connected
          (succeeds handle rfl held) next
  | false =>
      cases ping with
      | none =>
          obtain ⟨records, done⟩ := connect_answered connected name
          rw [done] at next succeeds
          exact .succeeded name target connected (succeeds _ rfl rfl) next
      | some fault =>
          obtain ⟨records, done⟩ := connect_unanswered connected name fault
          rw [done] at next fails
          exact .failed name fault target connected (fails _ rfl) next

theorem effect
    {connection : Connection} (sound : connection.Sound) (call : Call) :
    call.Effect connection :=
  match call with
  | .connect _ _ => effect_of_target sound rfl
  | .close => effect_close sound
  | .obtain _ _ => effect_of_target sound rfl

theorem sound_fresh : fresh.Sound where
  held := Bool.noConfusion
  made _ held := by cases held

theorem Sound.after
    {connection : Connection} (sound : connection.Sound) (call : Call) :
    (call.after connection).Sound := by
  cases effect sound call with
  | closed _ _ handle connected _ =>
      constructor
      · intro absurd
        rw [connected] at absurd
        cases absurd
      · intro other held
        rw [handle] at held
        cases held
  | kept _ _ _ same =>
      rw [same]
      exact sound
  | succeeded name _ _ _ next =>
      rw [next]
      refine ⟨fun _ => ⟨_, rfl⟩, fun handle held => ?_⟩
      cases held
      exact Nat.lt_succ_self _
  | failed name fault _ _ _ next =>
      rw [next]
      refine ⟨fun _ => ⟨_, rfl⟩, fun handle held => ?_⟩
      cases held
      exact Nat.lt_succ_self _

section After

variable {connection : Connection} (sound : connection.Sound)
include sound

theorem opened_le_after (call : Call) :
    connection.opened ≤ (call.after connection).opened := by
  cases effect sound call with
  | closed _ _ _ _ opened =>
      exact Nat.le_of_eq opened.symm
  | kept _ _ _ same =>
      exact Nat.le_of_eq (congrArg Connection.opened same.symm)
  | succeeded name _ _ _ next =>
      rw [next]
      exact Nat.le_succ _
  | failed name fault _ _ _ next =>
      rw [next]
      exact Nat.le_succ _

theorem serial_lt_of_connects?
    {call : Call} {handle : Handle}
    (made : call.connects? connection = some handle) :
    handle.serial < (call.after connection).opened := by
  cases effect sound call with
  | closed closes _ _ _ _ =>
      rw [closes] at made
      cases made
  | kept _ connected _ _ =>
      rw [Call.connects?_of_connected connected] at made
      cases made
  | succeeded name target unconnected _ next =>
      rw [Call.connects?_of_answered target unconnected] at made
      cases made
      rw [next]
      exact Nat.lt_succ_self _
  | failed name fault target _ _ _ =>
      rw [Call.connects?_of_unanswered target] at made
      cases made

end After

theorem run_concat (calls : List Call) (call : Call) :
    run (calls ++ [call]) = call.after (run calls) := by
  unfold run
  rw [List.foldl_append]
  rfl

theorem sound_run (calls : List Call) : (run calls).Sound := by
  induction calls using List.reverseRecOn with
  | nil =>
      exact sound_fresh
  | append_singleton calls call inductionHypothesis =>
      rw [run_concat]
      exact inductionHypothesis.after call

theorem connects_append
    (connection : Connection) (calls others : List Call) :
    connection.connects (calls ++ others) =
      connection.connects calls ++
        (calls.foldl (fun connection call => call.after connection)
          connection).connects others := by
  induction calls generalizing connection with
  | nil =>
      rfl
  | cons call calls inductionHypothesis =>
      rw [List.cons_append, connects, connects, inductionHypothesis,
        List.append_assoc, List.foldl_cons]

theorem connects_concat (calls : List Call) (call : Call) :
    fresh.connects (calls ++ [call]) =
      fresh.connects calls ++ (call.connects? (run calls)).toList := by
  rw [connects_append, connects, connects, List.append_nil]
  rfl

/-- Some call was answered, and nothing was closed after it. -/
def Reached (calls : List Call) : Prop :=
  ∃ earlier call later,
    calls = earlier ++ call :: later ∧ call.Answered ∧ .close ∉ later

theorem reached_concat_iff {calls : List Call} {last : Call} :
    Reached (calls ++ [last]) ↔
      last.Answered ∨ last ≠ .close ∧ Reached calls := by
  constructor
  · rintro ⟨earlier, call, later, split, answered, open_⟩
    rcases List.eq_nil_or_concat later with rfl | ⟨front, final, rfl⟩
    · obtain ⟨-, same⟩ := List.append_inj' split rfl
      cases same
      exact .inl answered
    · rw [List.concat_eq_append, List.mem_append, not_or,
        List.mem_singleton] at open_
      rw [List.concat_eq_append, ← List.cons_append, ← List.append_assoc]
        at split
      obtain ⟨same, ends⟩ := List.append_inj' split rfl
      cases ends
      exact
        .inr ⟨fun closes => open_.2 closes.symm,
          earlier, call, front, same, answered, open_.1⟩
  · rintro (answered | ⟨opens, earlier, call, later, rfl, answered, open_⟩)
    · exact ⟨calls, last, [], rfl, answered, List.not_mem_nil⟩
    · refine ⟨earlier, call, later ++ [last], by simp, answered, ?_⟩
      rw [List.mem_append, List.mem_singleton, not_or]
      exact ⟨open_, fun closes => opens closes.symm⟩

-- By the last call: each of its effects either decides the question or leaves it to the
-- calls before.
theorem connected_run_iff (calls : List Call) :
    (run calls).connected = true ↔ Reached calls := by
  induction calls using List.reverseRecOn with
  | nil =>
      constructor
      · exact Bool.noConfusion
      · rintro ⟨earlier, call, later, split, -⟩
        simp at split
  | append_singleton calls call inductionHypothesis =>
      rw [run_concat, reached_concat_iff]
      cases effect (sound_run calls) call with
      | closed closes _ _ unconnected _ =>
          subst closes
          rw [unconnected]
          constructor
          · exact Bool.noConfusion
          · rintro (⟨name, target⟩ | ⟨opens, -⟩)
            · cases target
            · exact absurd rfl opens
      | kept opens connected _ same =>
          rw [same]
          exact
            ⟨fun _ => .inr ⟨opens, inductionHypothesis.mp connected⟩,
              fun _ => connected⟩
      | succeeded name target _ _ next =>
          rw [next]
          exact ⟨fun _ => .inl ⟨name, target⟩, fun _ => rfl⟩
      | failed name fault target unconnected _ next =>
          rw [next]
          constructor
          · exact Bool.noConfusion
          · rintro (⟨other, targetToo⟩ | ⟨-, reached⟩)
            · rw [target] at targetToo
              cases targetToo
            · rw [inductionHypothesis.mpr reached] at unconnected
              cases unconnected

/-- While there is a connection, its handle is that of the latest connect that
succeeded. -/
theorem handle_run_of_connected
    {calls : List Call} (connected : (run calls).connected = true) :
    (run calls).handle = (fresh.connects calls).getLast? := by
  induction calls using List.reverseRecOn with
  | nil =>
      cases connected
  | append_singleton calls call inductionHypothesis =>
      rw [run_concat] at connected ⊢
      rw [connects_concat]
      cases effect (sound_run calls) call with
      | closed _ _ _ unconnected _ =>
          rw [unconnected] at connected
          cases connected
      | kept _ before _ same =>
          rw [same, Call.connects?_of_connected before,
            inductionHypothesis before]
          simp
      | succeeded name target unconnected _ next =>
          rw [next, Call.connects?_of_answered target unconnected]
          simp [renewed]
      | failed name fault _ _ _ next =>
          rw [next] at connected
          cases connected

/-- No client that was connected before has the number of the next one. -/
theorem serial_lt_of_mem_connects
    {calls : List Call} {handle : Handle}
    (member : handle ∈ fresh.connects calls) :
    handle.serial < (run calls).opened := by
  induction calls using List.reverseRecOn with
  | nil =>
      cases member
  | append_singleton calls call inductionHypothesis =>
      have sound := sound_run calls
      rw [connects_concat, List.mem_append, Option.mem_toList] at member
      rw [run_concat]
      rcases member with before | made
      · exact
          Nat.lt_of_lt_of_le (inductionHypothesis before)
            (opened_le_after sound call)
      · exact serial_lt_of_connects? sound made

theorem handle_run_eq_none_iff (calls : List Call) :
    (run calls).handle = none ↔
      calls = [] ∨ calls.getLast? = some .close := by
  rcases List.eq_nil_or_concat calls with rfl | ⟨front, last, rfl⟩
  · exact ⟨fun _ => .inl rfl, fun _ => rfl⟩
  · rw [List.concat_eq_append, run_concat, List.getLast?_concat,
      Option.some_inj]
    cases effect (sound_run front) last with
    | closed closes _ handle _ _ =>
        exact ⟨fun _ => .inr closes, fun _ => handle⟩
    | kept opens connected _ same =>
        obtain ⟨handle, held⟩ := (sound_run front).held connected
        rw [same, held]
        simp [opens]
    | succeeded name target _ _ next =>
        rw [next]
        simp [renewed, Call.ne_close_of_target target]
    | failed name fault target _ _ next =>
        rw [next]
        simp [renewed, Call.ne_close_of_target target]

/-- The last call failed. -/
def EndsInFailure (calls : List Call) : Prop :=
  ∃ earlier call failure,
    calls = earlier ++ [call] ∧ call.outcome (run earlier) = .error failure

theorem endsInFailure_concat_iff {calls : List Call} {last : Call} :
    EndsInFailure (calls ++ [last]) ↔
      ∃ failure, last.outcome (run calls) = .error failure := by
  constructor
  · rintro ⟨earlier, call, failure, split, failed⟩
    obtain ⟨rfl, same⟩ := List.append_inj' split rfl
    cases same
    exact ⟨failure, failed⟩
  · rintro ⟨failure, failed⟩
    exact ⟨calls, last, failure, rfl, failed⟩

theorem endsInFailure_iff (calls : List Call) :
    EndsInFailure calls ↔
      (∃ handle, (run calls).handle = some handle) ∧
        (run calls).connected = false := by
  rcases List.eq_nil_or_concat calls with rfl | ⟨front, last, rfl⟩
  · constructor
    · rintro ⟨earlier, call, failure, split, -⟩
      simp at split
    · rintro ⟨⟨handle, absent⟩, -⟩
      cases absent
  · rw [List.concat_eq_append, endsInFailure_concat_iff, run_concat]
    cases effect (sound_run front) last with
    | closed _ done handle _ _ =>
        rw [done, handle]
        simp
    | kept _ connected done same =>
        obtain ⟨answer, done⟩ := done
        rw [done, same, connected]
        simp
    | succeeded name _ _ done next =>
        obtain ⟨answer, done⟩ := done
        rw [done, next]
        simp [renewed]
    | failed name fault _ _ done next =>
        rw [done, next]
        simp [renewed]

/-! ## The handle after a run -/

/-- What a failed call leaves behind: there was no connection and there is none, but there
is the handle of a client that was never connected, in the place of what was there
before. -/
theorem abandoned_of_failure
    {calls : List Call} {call : Call} {failure : Failure}
    (failed : call.outcome (run calls) = .error failure) :
    (run calls).connected = false ∧
      (call.after (run calls)).connected = false ∧
        ∃ handle,
          (call.after (run calls)).database = .ok handle ∧
            (run calls).database ≠ .ok handle ∧
              handle ∉ fresh.connects (calls ++ [call]) := by
  have sound := sound_run calls
  cases effect sound call with
  | closed _ done _ _ _ =>
      rw [done] at failed
      cases failed
  | kept _ _ done _ =>
      obtain ⟨answer, done⟩ := done
      rw [done] at failed
      cases failed
  | succeeded _ _ _ done _ =>
      obtain ⟨answer, done⟩ := done
      rw [done] at failed
      cases failed
  | failed name fault target unconnected _ next =>
      rw [next]
      refine
        ⟨unconnected, rfl, ⟨(run calls).opened, name⟩, rfl, fun before => ?_,
          fun member => ?_⟩
      · exact
          absurd (sound.made _ (database_eq_ok_iff.mp before))
            (Nat.lt_irrefl _)
      · rw [connects_concat, Call.connects?_of_unanswered target,
          Option.toList_none, List.append_nil] at member
        exact absurd (serial_lt_of_mem_connects member) (Nat.lt_irrefl _)

/-- After any calls there is a handle just when there is a connection, unless the last
call failed.  A connection there is just when a call was answered and nothing was
closed after it, and it gives the handle of the latest connect that succeeded.  There
is no handle before the first call and right after closing, and at no other time.  A
call that fails leaves the handle of its own client, which was never connected, in the
place of whatever was there before. -/
theorem handle_iff_connected_iff (calls : List Call) :
    (((∃ handle, (run calls).database = .ok handle) ↔
          (run calls).connected = true) ↔
        ¬ EndsInFailure calls) ∧
      ((run calls).connected = true ↔ Reached calls) ∧
      ((run calls).connected = true →
        ∃ handle,
          (fresh.connects calls).getLast? = some handle ∧
            (run calls).database = .ok handle) ∧
      (∀ failure, (run calls).database = .error failure ↔
        failure = .notConnected ∧
          (calls = [] ∨ calls.getLast? = some .close)) ∧
      ∀ call failure, call.outcome (run calls) = .error failure →
        (run calls).connected = false ∧
          (call.after (run calls)).connected = false ∧
            ∃ handle,
              (call.after (run calls)).database = .ok handle ∧
                (run calls).database ≠ .ok handle ∧
                  handle ∉ fresh.connects (calls ++ [call]) := by
  have sound := sound_run calls
  refine
    ⟨?_, connected_run_iff calls, fun connected => ?_, fun failure => ?_,
      fun call failure => abandoned_of_failure⟩
  · simp only [database_eq_ok_iff, endsInFailure_iff]
    cases connected : (run calls).connected with
    | true =>
        simp [sound.held connected]
    | false =>
        simp
  · obtain ⟨handle, held⟩ := sound.held connected
    rw [← handle_run_of_connected connected]
    exact ⟨handle, held, database_eq_ok_iff.mpr held⟩
  · rw [database_eq_error_iff, handle_run_eq_none_iff]

/-- A database that answers the second time. -/
theorem secondAttempt_connected :
    ((run [.connect "iam_db" (some "no route"), .obtain "iam_db" none]).connected =
          true ∧
        (Call.connect "iam_db" (some "no route")).outcome (run [.close]) =
          .error (.connection "no route")) ∧
      (∃ handle,
        (fresh.connects
            [.connect "iam_db" (some "no route"),
              .obtain "iam_db" none]).getLast? =
            some handle ∧
          (run [.connect "iam_db" (some "no route"),
              .obtain "iam_db" none]).database =
            .ok handle) ∧
      ((Call.connect "iam_db" (some "no route")).after (run [.close])).connected =
        false := by
  have connected :
      (run [.connect "iam_db" (some "no route"),
        .obtain "iam_db" none]).connected = true := rfl
  have failed :
      (Call.connect "iam_db" (some "no route")).outcome (run [.close]) =
        .error (.connection "no route") := rfl
  exact
    ⟨⟨connected, failed⟩,
      (handle_iff_connected_iff _).2.2.1 connected,
      ((handle_iff_connected_iff _).2.2.2.2 _ _ failed).2.1⟩

/-- A database that does not answer: there is no connection, and there is a handle, where
there was none before. -/
theorem unanswered_leaves_handle :
    (Call.connect "iam_db" (some "no route")).outcome fresh =
        .error (.connection "no route") ∧
      (run [.connect "iam_db" (some "no route")]).connected = false ∧
      (run [.connect "iam_db" (some "no route")]).database =
        .ok ⟨0, "iam_db"⟩ ∧
      fresh.database = .error .notConnected :=
  ⟨rfl, rfl, rfl, rfl⟩

end Connection

end AccessControl
