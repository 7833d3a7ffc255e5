import EventScript.Database.Basic

/-!
# The written form of a database

Every record is written as an object of all its fields, and a field that is missing where a record
is read takes its default. Conditions on a variable, a turn or hit points are written as short
arrays of exact length, triggers and kinds of items by name.
-/

namespace EventScript

instance : JsonForm Trigger where
  write t := .text t.name
  read? := JsonForm.readName? Trigger.names

instance : JsonForm ItemKind where
  write k := .text k.name
  read? := JsonForm.readName? ItemKind.names

instance : JsonForm VariableCondition where
  write c := .arr [JsonForm.write c.id, JsonForm.write c.least]
  read?
    | .arr [id, least] => do
      some { id := ← JsonForm.read? id, least := ← JsonForm.read? least }
    | _ => none

instance : JsonForm TurnCondition where
  write c := .arr [JsonForm.write c.start, JsonForm.write c.every]
  read?
    | .arr [start, every] => do
      some { start := ← JsonForm.read? start, every := ← JsonForm.read? every }
    | _ => none

instance : JsonForm EnemyCondition where
  write c := .arr [JsonForm.write c.index, JsonForm.write c.low, JsonForm.write c.high]
  read?
    | .arr [index, low, high] => do
      some {
        index := ← JsonForm.read? index
        low := ← JsonForm.read? low
        high := ← JsonForm.read? high }
    | _ => none

instance : JsonForm ActorCondition where
  write c := .arr [JsonForm.write c.id, JsonForm.write c.low, JsonForm.write c.high]
  read?
    | .arr [id, low, high] => do
      some { id := ← JsonForm.read? id, low := ← JsonForm.read? low, high := ← JsonForm.read? high }
    | _ => none

def CommonEvent.fieldNames : List String := [
  "id", "name", "trigger", "switch_id", "commands"]

instance : JsonForm CommonEvent where
  write c := JsonForm.record CommonEvent.fieldNames [
    JsonForm.write c.id, JsonForm.write c.name, JsonForm.write c.trigger,
    JsonForm.write c.switchId, JsonForm.write c.commands]
  read? j := do
    let fs ← JsonForm.fields? CommonEvent.fieldNames j
    let d : CommonEvent := {}
    some {
      id := ← fs.get "id" d.id
      name := ← fs.get "name" d.name
      trigger := ← fs.get "trigger" d.trigger
      switchId := ← fs.get "switch_id" d.switchId
      commands := ← fs.get "commands" d.commands }

def PageCondition.fieldNames : List String := [
  "switch_a", "switch_b", "variable"]

instance : JsonForm PageCondition where
  write c := JsonForm.record PageCondition.fieldNames [
    JsonForm.write c.switchA, JsonForm.write c.switchB, JsonForm.write c.variableLeast]
  read? j := do
    let fs ← JsonForm.fields? PageCondition.fieldNames j
    let d : PageCondition := {}
    some {
      switchA := ← fs.get "switch_a" d.switchA
      switchB := ← fs.get "switch_b" d.switchB
      variableLeast := ← fs.get "variable" d.variableLeast }

def EventPage.fieldNames : List String := [
  "condition", "trigger", "sprite", "direction", "commands"]

instance : JsonForm EventPage where
  write p := JsonForm.record EventPage.fieldNames [
    JsonForm.write p.condition, JsonForm.write p.trigger, JsonForm.write p.sprite,
    JsonForm.write p.direction, JsonForm.write p.commands]
  read? j := do
    let fs ← JsonForm.fields? EventPage.fieldNames j
    let d : EventPage := {}
    some {
      condition := ← fs.get "condition" d.condition
      trigger := ← fs.get "trigger" d.trigger
      sprite := ← fs.get "sprite" d.sprite
      direction := ← fs.get "direction" d.direction
      commands := ← fs.get "commands" d.commands }

def EventData.fieldNames : List String := [
  "id", "name", "x", "y", "pages"]

instance : JsonForm EventData where
  write e := JsonForm.record EventData.fieldNames [
    JsonForm.write e.id, JsonForm.write e.name, JsonForm.write e.x, JsonForm.write e.y,
    JsonForm.write e.pages]
  read? j := do
    let fs ← JsonForm.fields? EventData.fieldNames j
    let d : EventData := {}
    some {
      id := ← fs.get "id" d.id
      name := ← fs.get "name" d.name
      x := ← fs.get "x" d.x
      y := ← fs.get "y" d.y
      pages := ← fs.get "pages" d.pages }

def MapData.fieldNames : List String := [
  "id", "name", "width", "height", "terrain", "events"]

instance : JsonForm MapData where
  write m := JsonForm.record MapData.fieldNames [
    JsonForm.write m.id, JsonForm.write m.name, JsonForm.write m.width, JsonForm.write m.height,
    JsonForm.write m.terrain, JsonForm.write m.events]
  read? j := do
    let fs ← JsonForm.fields? MapData.fieldNames j
    let d : MapData := {}
    some {
      id := ← fs.get "id" d.id
      name := ← fs.get "name" d.name
      width := ← fs.get "width" d.width
      height := ← fs.get "height" d.height
      terrain := ← fs.get "terrain" d.terrain
      events := ← fs.get "events" d.events }

def TroopCondition.fieldNames : List String := [
  "switch_a", "switch_b", "variable", "turn", "enemy_hp", "actor_hp"]

instance : JsonForm TroopCondition where
  write c := JsonForm.record TroopCondition.fieldNames [
    JsonForm.write c.switchA, JsonForm.write c.switchB, JsonForm.write c.variableLeast,
    JsonForm.write c.turn, JsonForm.write c.enemyHp, JsonForm.write c.actorHp]
  read? j := do
    let fs ← JsonForm.fields? TroopCondition.fieldNames j
    let d : TroopCondition := {}
    some {
      switchA := ← fs.get "switch_a" d.switchA
      switchB := ← fs.get "switch_b" d.switchB
      variableLeast := ← fs.get "variable" d.variableLeast
      turn := ← fs.get "turn" d.turn
      enemyHp := ← fs.get "enemy_hp" d.enemyHp
      actorHp := ← fs.get "actor_hp" d.actorHp }

def TroopPage.fieldNames : List String := [
  "condition", "commands"]

instance : JsonForm TroopPage where
  write p := JsonForm.record TroopPage.fieldNames [
    JsonForm.write p.condition, JsonForm.write p.commands]
  read? j := do
    let fs ← JsonForm.fields? TroopPage.fieldNames j
    let d : TroopPage := {}
    some {
      condition := ← fs.get "condition" d.condition
      commands := ← fs.get "commands" d.commands }

def EnemyData.fieldNames : List String := [
  "name", "hp", "sp", "hidden"]

instance : JsonForm EnemyData where
  write e := JsonForm.record EnemyData.fieldNames [
    JsonForm.write e.name, JsonForm.write e.hp, JsonForm.write e.sp, JsonForm.write e.hidden]
  read? j := do
    let fs ← JsonForm.fields? EnemyData.fieldNames j
    let d : EnemyData := {}
    some {
      name := ← fs.get "name" d.name
      hp := ← fs.get "hp" d.hp
      sp := ← fs.get "sp" d.sp
      hidden := ← fs.get "hidden" d.hidden }

def TroopData.fieldNames : List String := [
  "id", "name", "enemies", "pages"]

instance : JsonForm TroopData where
  write t := JsonForm.record TroopData.fieldNames [
    JsonForm.write t.id, JsonForm.write t.name, JsonForm.write t.enemies, JsonForm.write t.pages]
  read? j := do
    let fs ← JsonForm.fields? TroopData.fieldNames j
    let d : TroopData := {}
    some {
      id := ← fs.get "id" d.id
      name := ← fs.get "name" d.name
      enemies := ← fs.get "enemies" d.enemies
      pages := ← fs.get "pages" d.pages }

def ActorData.fieldNames : List String := [
  "id", "name", "title", "class_id", "level", "max_hp", "max_sp", "attack", "defense", "spirit",
  "agility", "skills", "equipment", "sprite", "sprite_index", "face", "face_index",
  "battle_commands"]

instance : JsonForm ActorData where
  write a := JsonForm.record ActorData.fieldNames [
    JsonForm.write a.id, JsonForm.write a.name, JsonForm.write a.title, JsonForm.write a.classId,
    JsonForm.write a.level, JsonForm.write a.maxHp, JsonForm.write a.maxSp,
    JsonForm.write a.attack, JsonForm.write a.defense, JsonForm.write a.spirit,
    JsonForm.write a.agility, JsonForm.write a.skills, JsonForm.write a.equipment,
    JsonForm.write a.sprite, JsonForm.write a.spriteIndex, JsonForm.write a.face,
    JsonForm.write a.faceIndex, JsonForm.write a.battleCommands]
  read? j := do
    let fs ← JsonForm.fields? ActorData.fieldNames j
    let d : ActorData := {}
    some {
      id := ← fs.get "id" d.id
      name := ← fs.get "name" d.name
      title := ← fs.get "title" d.title
      classId := ← fs.get "class_id" d.classId
      level := ← fs.get "level" d.level
      maxHp := ← fs.get "max_hp" d.maxHp
      maxSp := ← fs.get "max_sp" d.maxSp
      attack := ← fs.get "attack" d.attack
      defense := ← fs.get "defense" d.defense
      spirit := ← fs.get "spirit" d.spirit
      agility := ← fs.get "agility" d.agility
      skills := ← fs.get "skills" d.skills
      equipment := ← fs.get "equipment" d.equipment
      sprite := ← fs.get "sprite" d.sprite
      spriteIndex := ← fs.get "sprite_index" d.spriteIndex
      face := ← fs.get "face" d.face
      faceIndex := ← fs.get "face_index" d.faceIndex
      battleCommands := ← fs.get "battle_commands" d.battleCommands }

def ItemData.fieldNames : List String := [
  "id", "name", "kind", "price"]

instance : JsonForm ItemData where
  write i := JsonForm.record ItemData.fieldNames [
    JsonForm.write i.id, JsonForm.write i.name, JsonForm.write i.kind, JsonForm.write i.price]
  read? j := do
    let fs ← JsonForm.fields? ItemData.fieldNames j
    let d : ItemData := {}
    some {
      id := ← fs.get "id" d.id
      name := ← fs.get "name" d.name
      kind := ← fs.get "kind" d.kind
      price := ← fs.get "price" d.price }

def Music.fieldNames : List String := [
  "name", "fadein", "volume", "tempo", "balance"]

instance : JsonForm Music where
  write m := JsonForm.record Music.fieldNames [
    JsonForm.write m.name, JsonForm.write m.fadein, JsonForm.write m.volume,
    JsonForm.write m.tempo, JsonForm.write m.balance]
  read? j := do
    let fs ← JsonForm.fields? Music.fieldNames j
    let d : Music := {}
    some {
      name := ← fs.get "name" d.name
      fadein := ← fs.get "fadein" d.fadein
      volume := ← fs.get "volume" d.volume
      tempo := ← fs.get "tempo" d.tempo
      balance := ← fs.get "balance" d.balance }

def Sound.fieldNames : List String := [
  "name", "volume", "tempo", "balance"]

instance : JsonForm Sound where
  write s := JsonForm.record Sound.fieldNames [
    JsonForm.write s.name, JsonForm.write s.volume, JsonForm.write s.tempo,
    JsonForm.write s.balance]
  read? j := do
    let fs ← JsonForm.fields? Sound.fieldNames j
    let d : Sound := {}
    some {
      name := ← fs.get "name" d.name
      volume := ← fs.get "volume" d.volume
      tempo := ← fs.get "tempo" d.tempo
      balance := ← fs.get "balance" d.balance }

def SystemData.fieldNames : List String := [
  "title", "bgm", "se"]

instance : JsonForm SystemData where
  write s := JsonForm.record SystemData.fieldNames [
    JsonForm.write s.title, JsonForm.write s.bgm, JsonForm.write s.se]
  read? j := do
    let fs ← JsonForm.fields? SystemData.fieldNames j
    let d : SystemData := {}
    some {
      title := ← fs.get "title" d.title
      bgm := ← fs.get "bgm" d.bgm
      se := ← fs.get "se" d.se }

def Terms.fieldNames : List String := [
  "gold", "inn_a_greeting_1", "inn_a_greeting_2", "inn_a_greeting_3", "inn_a_accept",
  "inn_a_cancel", "inn_b_greeting_1", "inn_b_greeting_2", "inn_b_greeting_3", "inn_b_accept",
  "inn_b_cancel"]

instance : JsonForm Terms where
  write t := JsonForm.record Terms.fieldNames [
    JsonForm.write t.gold, JsonForm.write t.innAGreeting1, JsonForm.write t.innAGreeting2,
    JsonForm.write t.innAGreeting3, JsonForm.write t.innAAccept, JsonForm.write t.innACancel,
    JsonForm.write t.innBGreeting1, JsonForm.write t.innBGreeting2,
    JsonForm.write t.innBGreeting3, JsonForm.write t.innBAccept, JsonForm.write t.innBCancel]
  read? j := do
    let fs ← JsonForm.fields? Terms.fieldNames j
    let d : Terms := {}
    some {
      gold := ← fs.get "gold" d.gold
      innAGreeting1 := ← fs.get "inn_a_greeting_1" d.innAGreeting1
      innAGreeting2 := ← fs.get "inn_a_greeting_2" d.innAGreeting2
      innAGreeting3 := ← fs.get "inn_a_greeting_3" d.innAGreeting3
      innAAccept := ← fs.get "inn_a_accept" d.innAAccept
      innACancel := ← fs.get "inn_a_cancel" d.innACancel
      innBGreeting1 := ← fs.get "inn_b_greeting_1" d.innBGreeting1
      innBGreeting2 := ← fs.get "inn_b_greeting_2" d.innBGreeting2
      innBGreeting3 := ← fs.get "inn_b_greeting_3" d.innBGreeting3
      innBAccept := ← fs.get "inn_b_accept" d.innBAccept
      innBCancel := ← fs.get "inn_b_cancel" d.innBCancel }

def Start.fieldNames : List String := [
  "map_id", "x", "y", "party", "gold"]

instance : JsonForm Start where
  write s := JsonForm.record Start.fieldNames [
    JsonForm.write s.mapId, JsonForm.write s.x, JsonForm.write s.y, JsonForm.write s.party,
    JsonForm.write s.gold]
  read? j := do
    let fs ← JsonForm.fields? Start.fieldNames j
    let d : Start := {}
    some {
      mapId := ← fs.get "map_id" d.mapId
      x := ← fs.get "x" d.x
      y := ← fs.get "y" d.y
      party := ← fs.get "party" d.party
      gold := ← fs.get "gold" d.gold }

def Database.fieldNames : List String := [
  "config", "terms", "system", "actors", "items", "common_events", "troops", "maps", "start"]

instance : JsonForm Database where
  write d := JsonForm.record Database.fieldNames [
    JsonForm.write d.config, JsonForm.write d.terms, JsonForm.write d.system,
    JsonForm.write d.actors, JsonForm.write d.items, JsonForm.write d.commonEvents,
    JsonForm.write d.troops, JsonForm.write d.maps, JsonForm.write d.start]
  read? j := do
    let fs ← JsonForm.fields? Database.fieldNames j
    let d : Database := {}
    some {
      config := ← fs.get "config" d.config
      terms := ← fs.get "terms" d.terms
      system := ← fs.get "system" d.system
      actors := ← fs.get "actors" d.actors
      items := ← fs.get "items" d.items
      commonEvents := ← fs.get "common_events" d.commonEvents
      troops := ← fs.get "troops" d.troops
      maps := ← fs.get "maps" d.maps
      start := ← fs.get "start" d.start }

end EventScript
