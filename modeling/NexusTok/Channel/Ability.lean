import NexusTok.Channel.Basic

/-!
# The abilities of channels

`abilities` has a row for each group and model that a key channel serves.  The rows are built in
full from the fields of the channel (`AddAbilities`, `UpdateAbilities`), which are lists separated
by commas.
-/

namespace NexusTok.Channels

/-- Go through a list, and keep the first element for each key. -/
def firsts {α : Type} (key : α → String) : List String → List α → List α
  | _, [] => []
  | seen, a :: as =>
    if key a ∈ seen then firsts key seen as else a :: firsts key (key a :: seen) as

/-- The groups and models that a row is built for. -/
def pairs (models groups : List String) : List (String × String) :=
  models.flatMap fun model => groups.map fun group => (group, model)

/-- The key of a pair in `abilitySet`. -/
def pairKey (e : String × String) : String := e.1 ++ "|" ++ e.2

/-- The row of a channel for a group and a model.  A priority that is not set is the default of the
column. -/
def Channel.ability (channel : Channel) (e : String × String) : Ability where
  group := e.1
  model := e.2
  channelId := channel.id
  enabled := decide (channel.status = enabled)
  priority := channel.priority.getD 0
  weight := channel.weight.getD 0
  tag := channel.tag

def Channel.abilityRows (channel : Channel) (models : List String) : List Ability :=
  (firsts pairKey [] (pairs models (split ',' channel.group))).map channel.ability

def Channel.getModels (channel : Channel) : List String :=
  if channel.models = "" then [] else split ',' (trim ',' channel.models)

/-- The primary key. -/
def Ability.ref (a : Ability) : String × String × ℤ := (a.group, a.model, a.channelId)

variable (abilities : List Ability)

/-- `INSERT … ON CONFLICT DO NOTHING`. -/
def insertAbility (a : Ability) : List Ability :=
  if a.ref ∈ abilities.map Ability.ref then abilities else abilities ++ [a]

def addAbilities (channel : Channel) : List Ability :=
  if channel.upstreamKind = .platformSite then abilities
  else (channel.abilityRows (split ',' channel.models)).foldl insertAbility abilities

def updateAbilities (channel : Channel) : List Ability :=
  let others := abilities.filter fun a => decide (a.channelId ≠ channel.id)
  if channel.upstreamKind = .platformSite then others
  else (channel.abilityRows channel.getModels).foldl insertAbility others

/-- `lo.Chunk`, with the elements of the chunk that is filled, the last one first. -/
def chunkFrom {α : Type} (size : ℕ) : List α → List α → List (List α)
  | [], filled => if filled.isEmpty then [] else [filled.reverse]
  | a :: as, filled =>
    if filled.length + 1 = size then (a :: filled).reverse :: chunkFrom size as []
    else chunkFrom size as (a :: filled)

/-- `lo.Chunk`. -/
def chunk {α : Type} (size : ℕ) (as : List α) : List (List α) := chunkFrom size as []

/-- `FixAbility`: all rows are built anew, for fifty channels at a time. -/
def fixAbility (channels : List Channel) : List Ability :=
  (chunk 50 channels).foldl
    (fun abilities channels => channels.foldl addAbilities
      (abilities.filter fun a => decide (a.channelId ∉ channels.map fun ch => ch.id))) []

/-- `UpdateAbilityStatus`, also within other transactions. -/
def updateAbilityStatus (channelId : ℤ) (status : Bool) : List Ability :=
  Table.update (fun a => decide (a.channelId = channelId)) (fun a => { a with enabled := status })
    abilities

def updateAbilityStatusByTag (tag : String) (status : Bool) : List Ability :=
  Table.update (fun a => decide (a.tag = some tag)) (fun a => { a with enabled := status })
    abilities

/-- `UpdateAbilityByTag`.  Only what is not zero is written, and the weight is no pointer. -/
def updateAbilityByTag (tag : String) (newTag : Option String)
    (priority : Option ℤ) (weight : Option ℕ) : List Ability :=
  Table.update (fun a => decide (a.tag = some tag))
    (fun a => { a with
      tag := newTag.or a.tag
      priority := priority.getD a.priority
      weight := if weight.getD 0 = 0 then a.weight else weight.getD 0 })
    abilities

end NexusTok.Channels
