import RedisCell.Throttle.Effect
import RedisCell.Throttle.Span
import RedisCell.Cell.Expiry

/-! Sessions of commands at one server: it stays up, its keys stay apart, and idle keys go. -/

namespace RedisCell

open Interaction Keyspace ThrottleCommand

/-- The documented command on a key, when it is received at these seconds. -/
def readmeReceived (key : String) (seconds : Nat) : Received :=
  ⟨⟨seconds * 1000000000⟩, ["cl.throttle", key, "15", "30", "60", "3"].map String.toByteArray⟩

/-- Two documented commands on different keys. -/
def readmeSession : List Received := [readmeReceived "user123" 5, readmeReceived "user456" 7]

/-- The words of the documented commands are text. -/
theorem readmeSession_texts :
    ∀ received ∈ readmeSession, ∀ arg ∈ received.argv, arg.IsValidUTF8 := by
  -- Every word is ASCII.
  intro received member
  rcases List.mem_pair.mp member with rfl | rfl <;> exact valid_of_bytes rfl

namespace Keyspace

/-- A key is legible when a limiter never panics on what it holds, whatever the time is. -/
def Legible (keyspace : Keyspace) (key : String) : Prop :=
  ∀ now, (keyspace.wait now).tatVal key ≠ none

/-- Legibility is a matter of the entry alone. -/
theorem Legible.of_entries {keyspace keyspace' : Keyspace} {key : String}
    (legible : keyspace.Legible key) (same : keyspace'.entries key = keyspace.entries key) :
    keyspace'.Legible key := by
  -- A value is decoded from its entry and the clock alone.
  intro now
  have yields : (keyspace'.wait now).tatVal key = (keyspace.wait now).tatVal key :=
    tatVal_of_entries same rfl
  rw [yields]
  exact legible now

/-- A key without an entry is legible. -/
theorem legible_of_absent {keyspace : Keyspace} {key : String}
    (absent : keyspace.entries key = none) : keyspace.Legible key := by
  -- There is nothing to decode.
  intro now
  have yields : (keyspace.wait now).tatVal key = some (.ok none) := tatVal_of_absent absent
  rw [yields]
  exact Option.some_ne_none _

/-- The text of a count is legible, whether or not it has expired. -/
theorem legible_of_text {keyspace : Keyspace} {key : String} {value : UInt64}
    {expiry : Option OffsetDateTime}
    (stored : keyspace.entries key = some ⟨.text (u64ToString value).toByteArray, expiry⟩) :
    keyspace.Legible key := by
  intro now
  have holds : (keyspace.wait now).Holds key (some value) := by
    rw [Holds, show (keyspace.wait now).entries key = _ from stored]
    rfl
  -- The text decodes to its value, or has expired.
  rcases holds.tatVal_cases with yields | ⟨_, _, _, _, _, yields⟩ <;> rw [yields] <;>
    exact Option.some_ne_none _

end Keyspace

namespace Server

variable {σ : Type} {server : Server σ} {state left last : σ} {received : Received}
  {response : Response} {commands : List Received} {events : List (Received × Response)}

/-- A command of text on a legible key does not panic, and keeps every key legible. -/
theorem receive_legible (server : Server σ) (state : σ) (received : Received)
    (texts : ∀ arg ∈ received.argv, arg.IsValidUTF8)
    (legible : ∀ key, received.key = some key → (server.view state).Legible key) :
    ∃ response left, server.receive state received = some (response, left) ∧ response.Framed ∧
      ∀ key, (server.view state).Legible key → (server.view left).Legible key := by
  -- The command has one effect, which leaves a response unless it panics.
  obtain ⟨effect, found, proper, describes, yields⟩ := server.receive_cases state received
  have shows := receive_of_describes describes yields
  cases responds : effect.response with
  | none =>
    -- A panic comes from words that are not text, or from a text that is no count.
    rcases proper.panics responds with ⟨error, undecoded⟩ | ⟨unread, addressed⟩
    · obtain ⟨words, decoded⟩ := parseArgs_of_valid texts
      rw [decoded] at undecoded
      cases undecoded
    · obtain ⟨key, named⟩ := Option.ne_none_iff_exists'.mp addressed
      exact absurd ((yields key named).trans unread) (legible key named received.now)
  | some response =>
    rw [responds] at shows
    obtain ⟨left, answered, viewed⟩ := shows
    refine ⟨response, left, answered, proper.framed response responds, fun key before => ?_⟩
    have stored := effect.leaves_entries ((server.view state).wait received.now) response key
    rw [← viewed] at stored
    cases wrote : effect.entry key with
    | none =>
      rw [wrote] at stored
      exact before.of_entries stored
    | some entry =>
      -- What a command writes is the text of a count.
      rw [wrote] at stored
      obtain ⟨_, _, _, _, _, charged⟩ := proper.charges key entry (effect.written_of_entry wrote)
      rw [charged] at stored
      exact legible_of_text stored

/-- A session of commands of text on legible keys does not crash. -/
theorem session_survives (server : Server σ) (state : σ) (commands : List Received)
    (texts : ∀ received ∈ commands, ∀ arg ∈ received.argv, arg.IsValidUTF8)
    (legible : ∀ received ∈ commands, ∀ key, received.key = some key →
      (server.view state).Legible key) :
    ∃ events last, server.receive.session state commands = some (events, last) ∧
      ∀ event ∈ events, event.2.Framed := by
  -- The keys of all commands stay legible from one command to the next.
  have keeps : server.receive.Keeps (fun received => received ∈ commands)
      (fun state => ∀ received ∈ commands, ∀ key, received.key = some key →
        (server.view state).Legible key) (fun _ response => response.Framed) := by
    constructor
    intro state received legible member
    obtain ⟨response, left, answered, framed, kept⟩ :=
      server.receive_legible state received (texts received member) (legible received member)
    exact ⟨response, left, answered, framed, fun other listed key named =>
      kept key (legible other listed key named)⟩
  obtain ⟨events, last, ran, framed, _⟩ := keeps.session legible fun _ member => member
  exact ⟨events, last, ran, framed⟩

/-- The replies and the replications of a session are those of its commands, in order. -/
theorem session_counts (ran : server.receive.session state commands = some (events, last)) :
    (server.view last).replies =
        (server.view state).replies ++ events.flatMap (fun event => event.2.replies) ∧
      (server.view last).replications =
        (server.view state).replications + (events.map fun event => event.2.replications).sum := by
  -- The induction is on the commands.
  induction commands generalizing state events with
  | nil =>
    cases ran
    simp
  -- The first command sends its share, and the rest theirs.
  | cons received rest ih =>
    obtain ⟨response, left, later, answered, followed, rfl⟩ := System.session_cons_eq_some.mp ran
    obtain ⟨effect, _, _, _, _, _, viewed⟩ := receive_some answered
    obtain ⟨replies, replications⟩ :=
      effect.leaves_counts ((server.view state).wait received.now) response
    rw [← viewed] at replies replications
    obtain ⟨laterReplies, laterReplications⟩ := ih followed
    constructor
    · rw [laterReplies, replies, List.flatMap_cons, List.append_assoc]
      rfl
    · rw [laterReplications, replications, List.map_cons, List.sum_cons, Nat.add_assoc]
      rfl

/--
A server survives every session of commands of text on keys that are legible, and answers each of
them with one error, or with the five integers that an array announces.
-/
theorem survives (server : Server σ) (state : σ) (commands : List Received)
    (texts : ∀ received ∈ commands, ∀ arg ∈ received.argv, arg.IsValidUTF8)
    (legible : ∀ received ∈ commands, ∀ key, received.key = some key →
      (server.view state).Legible key) :
    ∃ events last, server.receive.session state commands = some (events, last) ∧
      events.map Prod.fst = commands ∧ (∀ event ∈ events, event.2.Framed) ∧
      (server.view last).replies =
        (server.view state).replies ++ events.flatMap (fun event => event.2.replies) ∧
      (server.view last).replications =
        (server.view state).replications + (events.map fun event => event.2.replications).sum := by
  -- The session goes through, and its replies are counted over its events.
  obtain ⟨events, last, ran, framed⟩ := server.session_survives state commands texts legible
  obtain ⟨replies, replications⟩ := session_counts ran
  exact ⟨events, last, ran, System.session_inputs ran, framed, replies, replications⟩

/-- The documented session goes through, and every command in it is answered in full. -/
theorem survives_readme :
    ∃ events last,
      Server.keyspace.receive.session Keyspace.empty readmeSession = some (events, last) ∧
      events.map Prod.fst = readmeSession ∧
      (∀ event ∈ events, event.2.Framed) ∧
      last.replies = [] ++ events.flatMap (fun event => event.2.replies) ∧
      last.replications = 0 + (events.map fun event => event.2.replications).sum :=
  -- Nothing is stored, so every key is legible.
  Server.survives Server.keyspace Keyspace.empty readmeSession readmeSession_texts
    (fun _ _ _ _ => legible_of_absent rfl)

/-- The keys of a server are cells, and a command that is refused for its words has a cell of its
own. -/
theorem receive_cellular (server : Server σ) : server.receive.Cellular Received.key
    fun addressed state => addressed.bind (server.view state).entries where
  alone := by
    intro state state' other received response answered same
    obtain ⟨effect, found, proper, describes, yields, responds, viewed⟩ := receive_some answered
    -- The other state yields the same, so the command has the same effect there.
    have again : ∀ key, received.key = some key →
        ((server.view other).wait received.now).tatVal key = found := by
      intro key named
      rw [named] at same
      rw [← yields key named]
      exact tatVal_of_entries same rfl
    have shows := receive_of_describes describes again
    rw [responds] at shows
    obtain ⟨left, answered', viewed'⟩ := shows
    refine ⟨left, answered', ?_⟩
    cases addressed : received.key with
    | none => rfl
    | some key =>
      rw [addressed] at same
      have same : (server.view other).entries key = (server.view state).entries key := same
      show (server.view left).entries key = (server.view state').entries key
      rw [viewed, viewed', Effect.leaves_entries, Effect.leaves_entries]
      exact congrArg (Option.or (effect.entry key)) same
  apart := by
    intro state state' received response addressed answered different
    obtain ⟨effect, found, proper, _, _, _, viewed⟩ := receive_some answered
    cases addressed with
    | none => rfl
    | some key =>
      show (server.view state').entries key = (server.view state).entries key
      rw [viewed, Effect.leaves_entries]
      cases wrote : effect.entry key with
      | none => rfl
      | some entry =>
        -- Only the key of the command is written.
        obtain ⟨args, _, asks, named, _⟩ := proper.charges key entry (effect.written_of_entry wrote)
        rw [← named] at different
        exact absurd (Received.key_of_arguments asks).symm different

/--
Keys stay apart: in a session that does not crash each key's commands are answered, and its entry
ends, as if the commands of that key had been the whole session.
-/
theorem keys_apart (server : Server σ) {other : σ} (key : String)
    (ran : server.receive.session state commands = some (events, last))
    (same : (server.view other).entries key = (server.view state).entries key) :
    ∃ last', server.receive.session other
        (commands.filter fun received => received.key = some key) =
          some (events.filter fun event => event.1.key = some key, last') ∧
      (server.view last').entries key = (server.view last).entries key :=
  server.receive_cellular.session (some key) ran same

/-- One key of the documented session fares as it would alone. -/
theorem keys_apart_readme :
    ∃ events last,
      Server.keyspace.receive.session Keyspace.empty readmeSession = some (events, last) ∧
      ∃ last', Server.keyspace.receive.session Keyspace.empty
          (readmeSession.filter fun received => received.key = some "user123") =
            some (events.filter fun event => event.1.key = some "user123", last') ∧
        last'.entries "user123" = last.entries "user123" := by
  -- The session goes through, so the theorem applies to its events.
  obtain ⟨events, last, ran, _⟩ := Server.keyspace.session_survives Keyspace.empty readmeSession
    readmeSession_texts (fun _ _ _ _ => legible_of_absent rfl)
  exact ⟨events, last, ran, Server.keys_apart Server.keyspace "user123" ran rfl⟩

/-- A command leaves the entry of a key alone, or charges the key with the call it asks for. -/
theorem receive_entry (answered : server.receive state received = some (response, left))
    (key : String) :
    (server.view left).entries key = (server.view state).entries key ∨
      ∃ args tatVal, received.arguments = .ok args ∧ args.key = key ∧
        ¬args.limiter.Blocks (args.limiter.increment args.quantity) tatVal received.now ∧
        (server.view left).entries key = some ((Keyspace.empty.wait received.now).charged
          (nanoseconds (RateLimiter.newTat (args.limiter.increment args.quantity) tatVal
            received.now))
          (RateLimiter.newTat (args.limiter.increment args.quantity) tatVal received.now -
            received.now)) := by
  -- What the command leaves is the effect that it has.
  obtain ⟨effect, found, proper, _, _, _, viewed⟩ := receive_some answered
  rw [viewed, Effect.leaves_entries]
  -- An entry that the command leaves is one that it has charged.
  cases wrote : effect.entry key with
  | none => exact Or.inl rfl
  | some entry =>
    obtain ⟨args, tatVal, asks, named, passes, charged⟩ :=
      proper.charges key entry (effect.written_of_entry wrote)
    exact Or.inr ⟨args, tatVal, asks, named, passes, congrArg some charged⟩

end Server

/--
A command with these arguments is exact, moves no schedule back, and leaves no debt beyond an
instant.
-/
structure Received.SettlesBy (received : Received) (args : Arguments) (now : OffsetDateTime) :
    Prop where
  exact_ : args.Exact
  forward : 0 ≤ args.interval * args.quantity.toInt
  settled : received.now.nanos + args.interval * (args.maxBurst.toInt + 1) ≤ now.nanos

/-- The charge of such a command expires by that instant. -/
theorem Received.SettlesBy.deadline {received : Received} {args : Arguments} {now : OffsetDateTime}
    {tatVal : Option UInt64} (settles : received.SettlesBy args now)
    (passes : ¬args.limiter.Blocks (args.limiter.increment args.quantity) tatVal received.now) :
    ∃ deadline, (args.written tatVal received.now).expiry = some deadline ∧ deadline ≤ now := by
  -- The charge has passed, so it ends within the tolerance.
  have exact_ := settles.exact_
  have forward := settles.forward
  have settled := settles.settled
  rw [exact_.blocks_iff] at passes
  -- The span is neither negative nor beyond the tolerance, and its milliseconds stay within it.
  have ahead := Gcra.le_due (storedTat tatVal) received.now.nanos
  have span : 0 ≤ args.span tatVal received.now := by
    rw [Arguments.span]
    omega
  have millis := tdiv_cases (args.span tatVal received.now) 1000000
  have nonneg : 0 ≤ args.millis tatVal received.now := by
    rw [Arguments.millis]
    omega
  refine ⟨_, if_pos nonneg, ?_⟩
  rw [OffsetDateTime.le_iff, OffsetDateTime.add_nanos]
  simp only [Duration.new, Arguments.millis] at *
  omega

namespace Server

variable {σ : Type} {server : Server σ} {state last : σ} {commands : List Received}
  {events : List (Received × Response)}

/-- Whatever entry a session leaves under a key has a deadline by which its commands are settled. -/
theorem session_deadline {key : String} {now : OffsetDateTime}
    (ran : server.receive.session state commands = some (events, last))
    (settles : ∀ received ∈ commands, ∀ args, received.arguments = .ok args → args.key = key →
      received.SettlesBy args now)
    (before : ∀ entry, (server.view state).entries key = some entry →
      ∃ deadline, entry.expiry = some deadline ∧ deadline ≤ now) :
    ∀ entry, (server.view last).entries key = some entry →
      ∃ deadline, entry.expiry = some deadline ∧ deadline ≤ now := by
  -- A command leaves the entry it finds, or one with a deadline of its own.
  induction commands generalizing state events with
  | nil =>
    cases ran
    exact before
  | cons received rest ih =>
    obtain ⟨response, left, later, answered, followed, rfl⟩ := System.session_cons_eq_some.mp ran
    refine ih followed (fun other member => settles other (List.mem_cons_of_mem _ member)) ?_
    intro entry stored
    rcases receive_entry answered key with same | ⟨args, tatVal, asks, named, passes, charged⟩
    · exact before entry (same ▸ stored)
    · have settled := settles received List.mem_cons_self args asks named
      have written : (Keyspace.empty.wait received.now).charged
          (nanoseconds (RateLimiter.newTat (args.limiter.increment args.quantity) tatVal
            received.now))
          (RateLimiter.newTat (args.limiter.increment args.quantity) tatVal received.now -
            received.now) = args.written tatVal received.now :=
        (charged_written settled.exact_ passes).1
      rw [written] at charged
      rw [charged, Option.some.injEq] at stored
      rw [← stored]
      exact settled.deadline passes

/--
An idle key goes: after a session on a fresh key it reads as absent from the instant on by which the
tolerance of each of its commands has passed.
-/
theorem idle_keys_go (server : Server σ) (key : String) (now : OffsetDateTime)
    (ran : server.receive.session state commands = some (events, last))
    (fresh : (server.view state).entries key = none)
    (settles : ∀ received ∈ commands, ∀ args, received.arguments = .ok args → args.key = key →
      received.SettlesBy args now) :
    ((server.view last).wait now).live key = none := by
  -- Every entry that the session leaves has a deadline by then.
  have deadlines := session_deadline ran settles (by simp [fresh])
  show ((server.view last).entries key).filter _ = none
  -- An entry that is left has a deadline, and it has passed.
  cases stored : (server.view last).entries key with
  | none => rfl
  | some entry =>
    obtain ⟨deadline, expires, passed⟩ := deadlines entry stored
    rw [OffsetDateTime.le_iff] at passed
    simp [Option.filter, expires, OffsetDateTime.lt_iff, passed]

end Server

/-- At 37 seconds the first key of the documented session is gone. -/
theorem Server.idle_keys_go_readme :
    ∃ events last,
      Server.keyspace.receive.session Keyspace.empty readmeSession = some (events, last) ∧
      (last.wait ⟨37000000000⟩).live "user123" = none := by
  -- Only the first of the two commands is about the key.
  obtain ⟨events, last, ran, _⟩ := Server.keyspace.session_survives Keyspace.empty readmeSession
    readmeSession_texts (fun _ _ _ _ => legible_of_absent rfl)
  refine ⟨events, last, ran,
    Server.idle_keys_go Server.keyspace "user123" ⟨37000000000⟩ ran rfl ?_⟩
  intro received member args asks named
  rcases List.mem_pair.mp member with rfl | rfl
  · -- The tolerance of the documented arguments is thirty-two seconds.
    have readme : (readmeReceived "user123" 5).arguments = .ok readmeArguments := by decide
    have same : args = readmeArguments := Except.ok.inj (asks.symm.trans readme)
    subst same
    exact ⟨⟨by decide, by decide⟩, by decide, by decide⟩
  · have other : (readmeReceived "user456" 7).key = some "user456" := by decide
    rw [Received.key_of_arguments asks, named] at other
    exact absurd other (by decide)

end RedisCell
