import RedisCell.Redis.Arguments
import RedisCell.ThrottleLaws
import RedisCell.Interaction.Session

/-! Everything one command does at a server, whatever its words are. -/

namespace RedisCell

open Interaction Keyspace ThrottleCommand

/-- One command as a server receives it, and the instant at which it does. -/
structure Received where
  now : OffsetDateTime
  argv : List ByteArray

/-- What the words of a command ask for. -/
def Received.arguments (received : Received) : Except CellError Arguments := do
  let words ← parseArgs received.argv
  ThrottleCommand.arguments words

/-- The key that a command is addressed to, unless it is refused for its words. -/
def Received.key (received : Received) : Option String :=
  received.arguments.toOption.map Arguments.key

/-- A command that asks for something is addressed to its key. -/
theorem Received.key_of_arguments {received : Received} {args : Arguments}
    (read : received.arguments = .ok args) : received.key = some args.key := by
  -- The key is that of the arguments, when there are any.
  rw [key, read]
  rfl

/-- What the module gives back for one command, and how often it has the command replicated. -/
structure Response where
  status : Status
  replies : List Reply
  replications : Nat
  deriving DecidableEq

/--
A response that a client can read: one error of a failed command, or the five integers that an array
announces, of a command that succeeds and is replicated once.
-/
inductive Response.Framed : Response → Prop where
  | failed (message : String) : Framed ⟨.err, [.error message], 0⟩
  | answered (throttled : Bool) (result : RateLimitResult) :
    Framed ⟨.ok, ThrottleCommand.replies throttled result, 1⟩

/-- Receive one command, and collect what it adds to the replies of the server. -/
def Server.receive {σ : Type} (server : Server σ) : System σ Received Response :=
  fun state received =>
    let waited := server.wait state received.now
    match (throttleCommand.harness received.argv).run server.handle waited with
    | (some status, left) =>
      some (⟨status, (server.view left).replies.drop (server.view waited).replies.length,
        (server.view left).replications - (server.view waited).replications⟩, left)
    -- A panic takes the server down.
    | (none, _) => none

/-- What one command does: its response, unless it panics, and the entry it writes. -/
structure Effect where
  response : Option Response
  written : Option (String × Entry)

namespace Effect

/-- The keyspace that a write leaves. -/
def writing (keyspace : Keyspace) : Option (String × Entry) → Keyspace
  | some (name, entry) => keyspace.put name entry
  | none => keyspace

/-- The keyspace that is left by a command that responds. -/
def leaves (effect : Effect) (keyspace : Keyspace) (response : Response) : Keyspace :=
  { writing keyspace effect.written with
    replies := (writing keyspace effect.written).replies ++ response.replies
    replications := (writing keyspace effect.written).replications + response.replications }

/-- A response leaves the replies and replications it consists of. -/
theorem leaves_counts (effect : Effect) (keyspace : Keyspace) (response : Response) :
    (effect.leaves keyspace response).replies = keyspace.replies ++ response.replies ∧
      (effect.leaves keyspace response).replications =
        keyspace.replications + response.replications := by
  -- Writing an entry touches neither of them.
  unfold leaves
  cases effect.written <;> exact ⟨rfl, rfl⟩

/-- The entry that a command writes under a name. -/
def entry (effect : Effect) (name : String) : Option Entry :=
  (effect.written.filter fun write => write.1 = name).map Prod.snd

/-- Every name keeps its entry, unless the command writes one there. -/
theorem leaves_entries (effect : Effect) (keyspace : Keyspace) (response : Response)
    (name : String) :
    (effect.leaves keyspace response).entries name =
      (effect.entry name).or (keyspace.entries name) := by
  show (writing keyspace effect.written).entries name = _
  unfold entry
  -- At most one key is written, and every other entry is found below it.
  cases effect.written with
  | none => rfl
  | some write =>
    obtain ⟨other, entry⟩ := write
    by_cases same : other = name
    · simp [writing, Option.filter, same]
    · simp [writing, Option.filter, put, same, Function.update_of_ne (Ne.symm same)]

/-- An entry under a name is the one that is written. -/
theorem written_of_entry (effect : Effect) {name : String} {entry : Entry}
    (wrote : effect.entry name = some entry) : effect.written = some (name, entry) := by
  -- The entry is written under the name that is asked for.
  obtain ⟨write, kept, rfl⟩ := Option.map_eq_some_iff.mp wrote
  obtain ⟨written, named⟩ := Option.filter_eq_some_iff.mp kept
  rw [written, ← of_decide_eq_true named]

/-- What a command writes is the charge of its call, under its own key. -/
def Charges (received : Received) (written : Option (String × Entry)) : Prop :=
  ∀ name entry, written = some (name, entry) →
    ∃ args tatVal, received.arguments = .ok args ∧ args.key = name ∧
      ¬args.limiter.Blocks (args.limiter.increment args.quantity) tatVal received.now ∧
      entry = (Keyspace.empty.wait received.now).charged
        (nanoseconds (RateLimiter.newTat (args.limiter.increment args.quantity) tatVal received.now))
        (RateLimiter.newTat (args.limiter.increment args.quantity) tatVal received.now -
          received.now)

/-- A command passes, but the expiry of its charge is refused. -/
def Unexpired (received : Received) : Prop :=
  ∃ args tatVal, received.arguments = .ok args ∧
    ¬args.limiter.Blocks (args.limiter.increment args.quantity) tatVal received.now ∧
    chargeAnswer (RateLimiter.newTat (args.limiter.increment args.quantity) tatVal received.now -
      received.now) ≠ .ok ()

/-- What a command may do, given its words and what its key yields. -/
structure Proper (effect : Effect) (received : Received)
    (found : Option (Except CellError (Option UInt64))) : Prop where
  /-- Only words that are not text, and a key whose text is no count, make a command panic. -/
  panics : effect.response = none →
    (∃ error, parseArgs received.argv = .error error) ∨ found = none ∧ received.key ≠ none
  framed : ∀ response, effect.response = some response → response.Framed
  charges : Charges received effect.written
  /-- A command that has written fails only where its expiry is refused. -/
  unexpired : ∀ response, effect.response = some response → response.status = .err →
    effect.written ≠ none → Unexpired received

/-- The effect is what a command does to every keyspace in which its key yields the same. -/
def Describes (effect : Effect) (received : Received)
    (found : Option (Except CellError (Option UInt64))) : Prop :=
  ∀ keyspace : Keyspace, keyspace.clock = received.now →
    (∀ key, received.key = some key → keyspace.tatVal key = found) →
    ((throttleCommand.harness received.argv).run Keyspace.handle keyspace).1 =
        effect.response.map Response.status ∧
      ∀ response, effect.response = some response →
        ((throttleCommand.harness received.argv).run Keyspace.handle keyspace).2 =
          effect.leaves keyspace response

end Effect

/-- The harness reports the outcome of the command it runs, and replies with its error. -/
theorem run_harness {argv : List ByteArray} {args : List String} (keyspace : Keyspace)
    (parsed : parseArgs argv = .ok args) :
    (throttleCommand.harness argv).run Keyspace.handle keyspace =
      match keyspace.throttle args with
      | (some (.ok _), left) => (some .ok, left)
      | (some (.error error), left) =>
        (some .err, left.reply (.error (cString ("Cell error: " ++ error.display))))
      | (none, left) => (none, left) := by
  -- Nothing follows a success or a panic.
  have ran : (throttleCommand.run args).run.run Keyspace.handle keyspace =
      keyspace.throttle args := rfl
  rw [Command.harness, parsed]
  show (throttleCommand.respond args).run Keyspace.handle keyspace = _
  rw [Command.respond, Program.run_bind, ran]
  obtain ⟨outcome, left⟩ := keyspace.throttle args
  rcases outcome with _ | _ | _ <;> rfl

namespace Effect

variable {received : Received} {args : List String}
  {found : Option (Except CellError (Option UInt64))}

/-- The effect of a command that fails: its error, after what it may have written. -/
def failure (error : CellError) (written : Option (String × Entry)) : Effect :=
  ⟨some ⟨.err, [.error (cString ("Cell error: " ++ error.display))], 0⟩, written⟩

/-- The effect of a command that succeeds: its integers, after what it may have written. -/
def success (answer : Bool × RateLimitResult) (written : Option (String × Entry)) : Effect :=
  ⟨some ⟨.ok, ThrottleCommand.replies answer.1 answer.2, 1⟩, written⟩

/-- A command fails with an error whatever else is in the keyspace. -/
theorem describes_failure {error : CellError} {written : Option (String × Entry)}
    (parsed : parseArgs received.argv = .ok args)
    (throttles : ∀ keyspace : Keyspace, keyspace.clock = received.now →
      (∀ key, received.key = some key → keyspace.tatVal key = found) →
      keyspace.throttle args = (some (.error error), writing keyspace written)) :
    (failure error written).Describes received found := by
  -- The error is replied last.
  intro keyspace clock yields
  rw [run_harness keyspace parsed, throttles keyspace clock yields]
  refine ⟨rfl, ?_⟩
  intro response responds
  cases responds
  cases written <;> rfl

/-- A command succeeds with an answer whatever else is in the keyspace. -/
theorem describes_success {answer : Bool × RateLimitResult} {written : Option (String × Entry)}
    (parsed : parseArgs received.argv = .ok args)
    (throttles : ∀ keyspace : Keyspace, keyspace.clock = received.now →
      (∀ key, received.key = some key → keyspace.tatVal key = found) →
      keyspace.throttle args =
        (some (.ok ()), (writing keyspace written).answered answer.1 answer.2)) :
    (success answer written).Describes received found := by
  intro keyspace clock yields
  -- The harness has nothing to add to an answer.
  rw [run_harness keyspace parsed, throttles keyspace clock yields]
  refine ⟨rfl, ?_⟩
  intro response responds
  cases responds
  cases written <;> rfl

/-- A command panics whatever else is in the keyspace. -/
theorem describes_panic (parsed : parseArgs received.argv = .ok args)
    (throttles : ∀ keyspace : Keyspace, keyspace.clock = received.now →
      (∀ key, received.key = some key → keyspace.tatVal key = found) →
      keyspace.throttle args = (none, keyspace)) :
    (Effect.mk none none).Describes received found := by
  -- The harness has nothing to answer.
  intro keyspace clock yields
  rw [run_harness keyspace parsed, throttles keyspace clock yields]
  exact ⟨rfl, by simp⟩

/-- A failure is proper. -/
theorem failure_proper (error : CellError) {written : Option (String × Entry)}
    (charges : Charges received written) (unexpired : written ≠ none → Unexpired received) :
    (failure error written).Proper received found where
  -- A failure sends its message and no element.
  panics := by simp [failure]
  framed := by
    intro response responds
    cases responds
    exact .failed _
  charges := charges
  unexpired := fun _ _ _ => unexpired

/-- A success is proper. -/
theorem success_proper (answer : Bool × RateLimitResult) {written : Option (String × Entry)}
    (charges : Charges received written) : (success answer written).Proper received found where
  -- A success has no error, so it need not have been refused an expiry.
  panics := by simp [success]
  framed := by
    intro response responds
    cases responds
    exact .answered _ _
  charges := charges
  unexpired := by
    intro response responds failed
    cases responds
    cases failed

/-- A panic is proper when there is a reason for it, and writes nothing. -/
theorem panic_proper (reason : (∃ error, parseArgs received.argv = .error error) ∨
    found = none ∧ received.key ≠ none) : (Effect.mk none none).Proper received found where
  panics := fun _ => reason
  framed := by simp
  charges := by simp [Charges]
  unexpired := by simp

/-- A charge that is not blocked has one effect, whether or not its expiry is accepted. -/
theorem exists_charge {words : List String} {parsed : Arguments} {tatVal : Option UInt64}
    (decoded : parseArgs received.argv = .ok words) (read : arguments words = .ok parsed)
    (asks : received.arguments = .ok parsed) (nonzero : parsed.limiter.emissionInterval.nanos ≠ 0)
    (passes : ¬parsed.limiter.Blocks (parsed.limiter.increment parsed.quantity) tatVal
      received.now) :
    ∃ effect : Effect, effect.Proper received (some (.ok tatVal)) ∧
      effect.Describes received (some (.ok tatVal)) := by
  -- The effect writes the charged entry, and fails when its expiry is refused.
  let new := RateLimiter.newTat (parsed.limiter.increment parsed.quantity) tatVal received.now
  let entry := (Keyspace.empty.wait received.now).charged (nanoseconds new) (new - received.now)
  have key := Received.key_of_arguments asks
  have charges : Charges received (some (parsed.key, entry)) := by
    intro name other same
    cases same
    exact ⟨parsed, tatVal, asks, rfl, passes, rfl⟩
  -- The entry depends on no other part of the keyspace than its clock.
  have passed : ∀ keyspace : Keyspace, keyspace.clock = received.now →
      (∀ key, received.key = some key → keyspace.tatVal key = some (.ok tatVal)) →
      keyspace.rateLimit parsed.limiter parsed.key parsed.quantity =
        (some ((chargeAnswer (new - received.now)).map fun _ => parsed.limiter.report
          (RateLimiter.granted (parsed.limiter.increment parsed.quantity) tatVal received.now)),
          keyspace.put parsed.key entry) := by
    intro keyspace clock yields
    have called := rateLimit_passed nonzero (yields _ key) (clock ▸ passes)
    have same : keyspace.charged (nanoseconds new) (new - received.now) = entry := by
      rw [charged, deadline, clock]
      rfl
    rw [clock] at called
    rw [called, same]
  cases answer : chargeAnswer (new - received.now) with
  | error error =>
    have refused : Unexpired received :=
      ⟨parsed, tatVal, asks, passes, by simp [new, answer]⟩
    refine ⟨_, failure_proper error charges fun _ => refused, describes_failure decoded ?_⟩
    intro keyspace clock yields
    have called := passed keyspace clock yields
    rw [answer] at called
    exact throttle_error read called
  | ok _ =>
    refine ⟨_, success_proper (parsed.limiter.report (RateLimiter.granted
      (parsed.limiter.increment parsed.quantity) tatVal received.now)) charges,
      describes_success decoded ?_⟩
    intro keyspace clock yields
    have called := passed keyspace clock yields
    rw [answer] at called
    exact throttle_ok read called

/-- Every command has one effect for what its key yields, whatever else the keyspace holds. -/
theorem exists_effect (received : Received) (found : Option (Except CellError (Option UInt64))) :
    ∃ effect : Effect, effect.Proper received found ∧ effect.Describes received found := by
  -- The cases are those in which the command can end.
  have writesNothing : Charges received none := by simp [Charges]
  cases decoded : parseArgs received.argv with
  | error error =>
    -- Words that are not text panic before anything is asked.
    refine ⟨⟨none, none⟩, panic_proper (Or.inl ⟨error, decoded⟩), ?_⟩
    intro keyspace _ _
    rw [harness_of_undecoded decoded]
    exact ⟨rfl, by simp⟩
  | ok words =>
    cases read : arguments words with
    | error error =>
      exact ⟨_, failure_proper error writesNothing (by simp),
        describes_failure decoded fun _ _ _ => throttle_unparsed read⟩
    | ok parsed =>
      have asks : received.arguments = .ok parsed := by
        simp only [Received.arguments, decoded]
        exact read
      have key := Received.key_of_arguments asks
      by_cases zero : parsed.limiter.emissionInterval.nanos = 0
      · exact ⟨_, failure_proper _ writesNothing (by simp),
          describes_failure decoded fun _ _ _ => throttle_error read (rateLimit_zero zero)⟩
      match found with
      | none =>
        -- A text that is no count panics in the read.
        exact ⟨⟨none, none⟩, panic_proper (Or.inr ⟨rfl, by simp [key]⟩),
          describes_panic decoded fun _ _ yields =>
            throttle_abort read (rateLimit_abort zero (yields _ key))⟩
      | some (.error error) =>
        exact ⟨_, failure_proper error writesNothing (by simp), describes_failure decoded fun _ _ yields =>
          throttle_error read (rateLimit_unread zero (yields _ key))⟩
      | some (.ok tatVal) =>
        by_cases blocks : parsed.limiter.Blocks (parsed.limiter.increment parsed.quantity) tatVal
            received.now
        · -- A refusal is a success that writes nothing.
          refine ⟨_, success_proper (parsed.limiter.report (parsed.limiter.blocked
            (parsed.limiter.increment parsed.quantity) tatVal received.now)) writesNothing,
            describes_success decoded ?_⟩
          intro keyspace clock yields
          rw [← clock] at blocks ⊢
          exact throttle_ok read (rateLimit_blocked zero (yields _ key) blocks)
        · exact exists_charge decoded read asks zero blocks

end Effect

/-- A key yields the same to two keyspaces that agree on its entry and on the time. -/
theorem Keyspace.tatVal_of_entries {keyspace keyspace' : Keyspace} {key : String}
    (same : keyspace.entries key = keyspace'.entries key)
    (clock : keyspace.clock = keyspace'.clock) : keyspace.tatVal key = keyspace'.tatVal key := by
  simp only [tatVal, bytes, live, same, clock]

namespace Server

variable {σ : Type} {server : Server σ} {state : σ} {received : Received} {effect : Effect}
  {found : Option (Except CellError (Option UInt64))}

/-- A server that receives a command shows the command's effect. -/
theorem receive_of_describes (describes : effect.Describes received found)
    (yields : ∀ key, received.key = some key →
      ((server.view state).wait received.now).tatVal key = found) :
    match effect.response with
    | none => server.receive state received = none
    | some response => ∃ left, server.receive state received = some (response, left) ∧
        server.view left = effect.leaves ((server.view state).wait received.now) response := by
  obtain ⟨status, left⟩ := describes _ (wait_clock _ _) yields
  -- The server answers as its keyspace does.
  rw [← server.waits, server.documented.run] at status left
  unfold receive
  cases ran : (throttleCommand.harness received.argv).run server.handle
      (server.wait state received.now) with
  | mk outcome last =>
    rw [ran] at status left
    simp only at status left
    cases responds : effect.response with
    | none =>
      rw [responds] at status
      cases status
      simp only [ran, Option.map_none]
    | some response =>
      rw [responds] at status
      cases status
      have viewed := left response responds
      obtain ⟨replies, replications⟩ :=
        effect.leaves_counts (server.view (server.wait state received.now)) response
      refine ⟨last, ?_, ?_⟩
      · simp only [ran, Option.map_some, viewed, replies, replications, List.drop_left,
          Nat.add_sub_cancel_left]
      · rw [viewed, server.waits]

/-- Whatever a command is, a server that receives it shows one proper effect. -/
theorem receive_cases (server : Server σ) (state : σ) (received : Received) :
    ∃ effect : Effect, ∃ found, effect.Proper received found ∧ effect.Describes received found ∧
      ∀ key, received.key = some key →
        ((server.view state).wait received.now).tatVal key = found := by
  -- A command without a key is refused, whatever the keyspace yields.
  cases addressed : received.key with
  | none =>
    obtain ⟨effect, proper, describes⟩ := Effect.exists_effect received none
    exact ⟨effect, none, proper, describes, by simp⟩
  | some key =>
    obtain ⟨effect, proper, describes⟩ :=
      Effect.exists_effect received (((server.view state).wait received.now).tatVal key)
    refine ⟨effect, _, proper, describes, ?_⟩
    intro other same
    cases same
    rfl

/-- A command that is answered has left its effect, which is that on any other keyspace too. -/
theorem receive_some {left : σ} {response : Response}
    (answered : server.receive state received = some (response, left)) :
    ∃ effect : Effect, ∃ found, effect.Proper received found ∧ effect.Describes received found ∧
      (∀ key, received.key = some key →
        ((server.view state).wait received.now).tatVal key = found) ∧
      effect.response = some response ∧
      server.view left = effect.leaves ((server.view state).wait received.now) response := by
  -- The effect of the command describes what the server shows.
  obtain ⟨effect, found, proper, describes, yields⟩ := server.receive_cases state received
  refine ⟨effect, found, proper, describes, yields, ?_⟩
  have shows := receive_of_describes describes yields
  -- An effect without a response panics, so it has answered nothing.
  cases responds : effect.response with
  | none =>
    rw [responds] at shows
    simp only at shows
    rw [answered] at shows
    cases shows
  | some other =>
    rw [responds] at shows
    obtain ⟨last, again, viewed⟩ := shows
    rw [answered, Option.some.injEq, Prod.mk.injEq] at again
    obtain ⟨rfl, rfl⟩ := again
    exact ⟨rfl, viewed⟩

end Server

end RedisCell
