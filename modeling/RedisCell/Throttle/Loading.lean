import RedisCell.Throttle.Conformance

/-! A server that has loaded the module may rely on what the module has registered. -/

namespace RedisCell

open Interaction

variable {σ α : Type} {handle : Handler LoadOp LoadOp.Answer σ} {state : σ}

/-- The lookups of some functions, each with whether the server has it. -/
def lookups (names : List (String × Bool)) : List ((op : LoadOp) × op.Answer) :=
  names.map fun name => ⟨.getApi ("RedisModule_" ++ name.1), name.2⟩

/-- The names of the functions that have been found. -/
def foundAmong (names : List (String × Bool)) : List String :=
  (names.filter Prod.snd).map Prod.fst

/-- A lookup is answered with whether there is such a function. -/
theorem redisModuleGetApi_bind {name : String} {next : Bool → Program LoadOp LoadOp.Answer α}
    {result : α} (returned : ((redisModuleGetApi name >>= next).run handle state).1 = some result) :
    ∃ present state', (redisModuleGetApi name >>= next).exchanges handle state =
        lookups [(name, present)] ++ (next present).exchanges handle state' ∧
      ((next present).run handle state').1 = some result :=
  Program.exchanges_of_returned returned

/-- All functions are looked up in their order before anything is done with those that are found. -/
theorem getApis_bind {names : List String}
    {next : List String → Program LoadOp LoadOp.Answer α} {result : α}
    (returned : ((getApis names >>= next).run handle state).1 = some result) :
    ∃ looked state', looked.map Prod.fst = names ∧
      (getApis names >>= next).exchanges handle state =
        lookups looked ++ (next (foundAmong looked)).exchanges handle state' ∧
      ((next (foundAmong looked)).run handle state').1 = some result := by
  -- The induction is on the names.
  induction names generalizing next state with
  | nil => exact ⟨[], state, rfl, rfl, returned⟩
  | cons name rest ih =>
    -- The first lookup is exchanged before those of the others.
    rw [getApis, Program.bind_bind] at returned ⊢
    obtain ⟨present, state', exchanged, returns⟩ := redisModuleGetApi_bind returned
    rw [Program.bind_bind] at exchanged returns
    obtain ⟨looked, last, named, others, finally_⟩ := ih returns
    rw [exchanged, others]
    refine ⟨(name, present) :: looked, last, by rw [List.map_cons, named], ?_, ?_⟩
    · cases present <;> rfl
    · cases present <;> exact finally_

/-- A function that is called through its pointer has been found. -/
theorem throughPointer_bind {found : List String} {name : String} {op : LoadOp}
    {next : op.Answer → Program LoadOp LoadOp.Answer α} {result : α}
    (returned : ((throughPointer found name op >>= next).run handle state).1 = some result) :
    ∃ answer state', (throughPointer found name op >>= next).exchanges handle state =
        ⟨op, answer⟩ :: (next answer).exchanges handle state' ∧
      ((next answer).run handle state').1 = some result := by
  unfold throughPointer at returned ⊢
  by_cases member : name ∈ found
  · rw [if_pos member] at returned ⊢
    exact Program.exchanges_of_returned returned
  · -- A null pointer takes the server down.
    rw [if_neg member] at returned
    cases returned

/-- A load that returns has looked up all functions, and then has registered itself and its command. -/
theorem onLoad_exchanges {status : Status} {found : List String}
    (loaded : (onLoad.run handle state).1 = some (status, found)) :
    ∃ looked : List (String × Bool), looked.map Prod.fst = moduleFunctions ∧
      found = foundAmong looked ∧
      onLoad.exchanges handle state = lookups looked ++
        [⟨.setModuleAttribs "redis-cell" 1 1, ()⟩,
          ⟨.createCommand throttleRegistration throttleRedisCommand, status⟩] := by
  -- The exchanges are followed step by step, since the load has returned.
  unfold onLoad moduleInit at loaded ⊢
  rw [Program.bind_bind] at loaded ⊢
  obtain ⟨looked, state', named, first, returns⟩ := getApis_bind loaded
  rw [Program.bind_bind] at returns
  obtain ⟨_, state'', second, goes⟩ := throughPointer_bind returns
  obtain ⟨created, last, third, ends⟩ := throughPointer_bind goes
  refine ⟨looked, named, ?_⟩
  rw [first, Program.bind_bind]
  -- Either way the load ends with what it has been told about its command.
  cases created with
  | ok =>
    cases ends
    exact ⟨rfl, congrArg _ (second.trans (congrArg _ third))⟩
  | err =>
    cases ends
    exact ⟨rfl, congrArg _ (second.trans (congrArg _ third))⟩

/-- Every function that the crate calls is among those that are looked up. -/
theorem symbol_mem_moduleFunctions {op : RawOp} {symbol : String} (calls : symbol ∈ op.symbol) :
    symbol ∈ moduleFunctions := by
  cases op <;> cases calls <;> decide

/-- A name that has been looked up is found when the server has it. -/
theorem mem_lookups {looked : List (String × Bool)} {name : String}
    (named : name ∈ looked.map Prod.fst) :
    ∃ present : Bool, ⟨.getApi ("RedisModule_" ++ name), present⟩ ∈ lookups looked ∧
      (present = true → name ∈ foundAmong looked) := by
  -- The lookups are in the order of the names.
  obtain ⟨⟨_, present⟩, member, rfl⟩ := List.mem_map.mp named
  refine ⟨present, List.mem_map.mpr ⟨_, member, rfl⟩, fun has => ?_⟩
  exact List.mem_map.mpr ⟨_, List.mem_filter.mpr ⟨member, has⟩, rfl⟩

/--
A server that has loaded the module may rely on what it has been told. It has been given one command,
after everything else; each function that the crate calls has been looked up, and is called only where
there is one; and whatever its words are, the command keeps to its registration for as long as the
server keeps to the interface: it uses only its declared keys, never a null one, writes only if it is
flagged so, and has sent one whole reply of its status once it has returned.

A command that panics has no status, and may have sent nothing.
-/
theorem onLoad_registers {σ : Type} (load : Handler LoadOp LoadOp.Answer σ) (state : σ)
    {found : List String} (loaded : (onLoad.run load state).1 = some (.ok, found)) :
    ∃ registration command,
      (∃ looked, onLoad.exchanges load state = lookups looked ++
        [⟨.setModuleAttribs "redis-cell" 1 1, ()⟩, ⟨.createCommand registration command, .ok⟩]) ∧
      (∀ op : RawOp, ∀ symbol ∈ op.symbol, ∃ present : Bool,
        ⟨.getApi ("RedisModule_" ++ symbol), present⟩ ∈ onLoad.exchanges load state ∧
          (present = true → symbol ∈ found)) ∧
      ∀ {τ : Type} (handle : Handler RedisOp RedisOp.Answer τ) (state : τ) (argv : List ByteArray),
        (registration.interface argv).Honest .silent ((command argv).exchanges handle state) →
          ∃ last, (registration.interface argv).Kept .silent
              ((command argv).exchanges handle state) last ∧
            ∀ status, ((command argv).run handle state).1 = some status →
              last.Concludes status := by
  -- What was exchanged is known, from the lookups to the registration.
  obtain ⟨looked, named, rfl, exchanged⟩ := onLoad_exchanges loaded
  -- The command conforms to the interface of its registration, and so is what it asks kept.
  refine ⟨throttleRegistration, throttleRedisCommand, ⟨looked, exchanged⟩, fun op symbol calls => ?_,
    fun handle state argv honest => (harness_conforms argv).kept handle state honest⟩
  have listed := symbol_mem_moduleFunctions calls
  rw [← named] at listed
  obtain ⟨present, member, has⟩ := mem_lookups listed
  exact ⟨present, exchanged ▸ List.mem_append_left _ member, has⟩

/-- A server that has every function and accepts every command. -/
def loader : Handler LoadOp LoadOp.Answer Unit
  | .getApi _, state => (some true, state)
  | .setModuleAttribs .., state => (some (), state)
  | .createCommand .., state => (some .ok, state)

/-- A server that has every function loads the module. -/
theorem onLoad_registers_loader :
    ∃ registration command,
      (∃ looked, onLoad.exchanges loader () = lookups looked ++
        [⟨.setModuleAttribs "redis-cell" 1 1, ()⟩, ⟨.createCommand registration command, .ok⟩]) ∧
      (∀ op : RawOp, ∀ symbol ∈ op.symbol, ∃ present : Bool,
        ⟨.getApi ("RedisModule_" ++ symbol), present⟩ ∈ onLoad.exchanges loader () ∧
          (present = true → symbol ∈ moduleFunctions)) ∧
      ∀ {τ : Type} (handle : Handler RedisOp RedisOp.Answer τ) (state : τ) (argv : List ByteArray),
        (registration.interface argv).Honest .silent ((command argv).exchanges handle state) →
          ∃ last, (registration.interface argv).Kept .silent
              ((command argv).exchanges handle state) last ∧
            ∀ status, ((command argv).run handle state).1 = some status →
              last.Concludes status :=
  onLoad_registers loader () rfl

end RedisCell
