import RedisCell.Throttle.Session

/-! Commands that are replicated as they are, and a replica that receives them when they are made. -/

namespace RedisCell

open Interaction Keyspace ThrottleCommand

/-- Whatever a command asks for is computed exactly and moves no schedule back. -/
def Received.MovesForward (received : Received) : Prop :=
  ∀ args, received.arguments = .ok args →
    args.Exact ∧ 0 ≤ args.interval * args.quantity.toInt

/-- The expiry of such a command is never refused. -/
theorem Received.MovesForward.expires {received : Received} (forward : received.MovesForward) :
    ¬Effect.Unexpired received := by
  rintro ⟨args, tatVal, asks, passes, refused⟩
  obtain ⟨exact_, forward⟩ := forward args asks
  -- The charge ends no earlier than now, so its milliseconds are not negative.
  have ahead := Gcra.le_due (storedTat tatVal) received.now.nanos
  have span : 0 ≤ args.span tatVal received.now := by
    rw [Arguments.span]
    omega
  have millis : 0 ≤ args.millis tatVal received.now := Int.tdiv_nonneg span (by omega)
  have atClock : ¬args.limiter.Blocks (args.limiter.increment args.quantity) tatVal
      (Keyspace.empty.wait received.now).clock := passes
  have whole := (charged_written exact_ atClock).2
  apply refused
  rw [chargeAnswer, if_pos]
  show -1 ≤ (expireMillis (_ - received.now)).toInt
  rw [show received.now = (Keyspace.empty.wait received.now).clock from rfl, whole]
  show -1 ≤ args.millis tatVal received.now
  omega

/-- Whether a command has been replicated. -/
def Response.isReplicated (response : Response) : Bool := response.replications != 0

namespace Server

variable {σ τ : Type} {primary : Server σ} {replica : Server τ} {state left : σ} {state' : τ}
  {received : Received} {response : Response}

/-- A command that is answered on the primary is answered alike where its key holds the same. -/
theorem receive_alike (replica : Server τ)
    (answered : primary.receive state received = some (response, left))
    (same : ∀ key, (replica.view state').entries key = (primary.view state).entries key) :
    ∃ left', replica.receive state' received = some (response, left') ∧
      ∀ key, (replica.view left').entries key = (primary.view left).entries key := by
  -- The effect of a command is made of its words, its instant, and what its key holds.
  obtain ⟨effect, found, proper, describes, yields, responds, viewed⟩ := receive_some answered
  have again : ∀ key, received.key = some key →
      ((replica.view state').wait received.now).tatVal key = found := fun key named => by
    rw [← yields key named]
    exact tatVal_of_entries (same key) rfl
  have shows := receive_of_describes describes again
  rw [responds] at shows
  obtain ⟨left', answered', viewed'⟩ := shows
  refine ⟨left', answered', fun key => ?_⟩
  rw [viewed, viewed', Effect.leaves_entries, Effect.leaves_entries]
  exact congrArg (Option.or (effect.entry key)) (same key)

/-- A command that is not replicated has failed, and leaves every entry, unless its expiry was
refused. -/
theorem receive_unreplicated (answered : primary.receive state received = some (response, left))
    (unsent : response.isReplicated = false) (expires : ¬Effect.Unexpired received) (key : String) :
    (primary.view left).entries key = (primary.view state).entries key := by
  -- Only an answer is replicated, so the command has failed.
  obtain ⟨effect, found, proper, describes, yields, responds, viewed⟩ := receive_some answered
  have failed : response.status = .err := by
    cases proper.framed response responds with
    | failed message => rfl
    | answered throttled result => cases unsent
  -- A command that fails after it has written has been refused its expiry.
  have unwritten : effect.written = none := by
    by_contra wrote
    exact expires (proper.unexpired response responds failed wrote)
  rw [viewed, Effect.leaves_entries, Effect.entry, unwritten]
  rfl

/-- A replica follows its primary by the commands that are replicated. -/
theorem replica_follows (primary : Server σ) (replica : Server τ) :
    primary.receive.Follows replica.receive Response.isReplicated
      (fun state state' => ∀ key,
        (replica.view state').entries key = (primary.view state).entries key)
      Received.MovesForward where
  takes := fun same _ answered _ => receive_alike replica answered same
  skips := fun same forward answered unsent key =>
    (same key).trans (receive_unreplicated answered unsent forward.expires key).symm

/--
A replica stays in step: when the commands of a session are exact and move no schedule back, a server
that starts from the same entries and receives only those that the session has replicated, at the
same instants, gives the same answers and ends with the same entries.
-/
theorem replica_in_step (primary : Server σ) (replica : Server τ) {last : σ}
    {commands : List Received} {events : List (Received × Response)}
    (ran : primary.receive.session state commands = some (events, last))
    (forward : ∀ received ∈ commands, received.MovesForward)
    (same : ∀ key, (replica.view state').entries key = (primary.view state).entries key) :
    ∃ last', replica.receive.session state'
        ((events.filter fun event => event.2.isReplicated).map Prod.fst) =
          some (events.filter fun event => event.2.isReplicated, last') ∧
      ∀ key, (replica.view last').entries key = (primary.view last).entries key :=
  (replica_follows primary replica).session ran forward same

/-- Two documented commands, and one between them that lacks its numbers. -/
def unevenSession : List Received :=
  [readmeReceived "user123" 5, ⟨⟨6000000000⟩, ["cl.throttle", "user123"].map String.toByteArray⟩,
    readmeReceived "user456" 7]

/-- The words of these commands are text. -/
theorem unevenSession_texts :
    ∀ received ∈ unevenSession, ∀ arg ∈ received.argv, arg.IsValidUTF8 := by
  -- Every word is ASCII.
  intro received member
  rcases List.mem_cons.mp member with rfl | member
  · exact valid_of_bytes rfl
  · rcases List.mem_pair.mp member with rfl | rfl <;> exact valid_of_bytes rfl

/-- A replica stays in step without the command that is refused for its words. -/
theorem replica_in_step_readme :
    ∃ events last,
      Server.keyspace.receive.session Keyspace.empty unevenSession = some (events, last) ∧
      events.map (fun event => event.2.isReplicated) = [true, false, true] ∧
      ∃ last', Server.keyspace.receive.session Keyspace.empty
          ((events.filter fun event => event.2.isReplicated).map Prod.fst) =
            some (events.filter fun event => event.2.isReplicated, last') ∧
        ∀ key, last'.entries key = last.entries key := by
  -- The session goes through, and its second command is not sent on.
  obtain ⟨events, last, ran, _⟩ := Server.keyspace.session_survives Keyspace.empty unevenSession
    unevenSession_texts (fun _ _ _ _ => legible_of_absent rfl)
  have sent : (Server.keyspace.receive.session Keyspace.empty unevenSession).map
      (fun ran => ran.1.map fun event => event.2.isReplicated) = some [true, false, true] := by
    decide
  rw [ran] at sent
  refine ⟨events, last, ran, Option.some.inj sent,
    Server.replica_in_step Server.keyspace Server.keyspace ran ?_ fun _ => rfl⟩
  intro received member args asks
  -- The refused command asks for nothing, and the others have the documented arguments.
  have documented : ∃ key, args = { readmeArguments with key := key } := by
    rcases List.mem_cons.mp member with rfl | member
    · have readme : (readmeReceived "user123" 5).arguments = .ok readmeArguments := by decide
      exact ⟨"user123", Except.ok.inj (asks.symm.trans readme)⟩
    · rcases List.mem_pair.mp member with rfl | rfl
      · cases asks
      · have readme : (readmeReceived "user456" 7).arguments =
            .ok { readmeArguments with key := "user456" } := by decide
        exact ⟨"user456", Except.ok.inj (asks.symm.trans readme)⟩
  obtain ⟨key, rfl⟩ := documented
  exact ⟨⟨show FitsI64 (readmeArguments.interval * 16) by decide,
    show FitsI64 (readmeArguments.interval * 3) by decide⟩,
    show 0 ≤ readmeArguments.interval * 3 by decide⟩

end Server

end RedisCell
