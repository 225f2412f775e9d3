import SignedMessaging.Message.Compose

/-!
# Messages as objects

A message is an object: an application refers to it and changes it, and what becomes
of it shows wherever it is referred to.  So is a dictionary, and the metadata of two
messages may be the same dictionary.  A header is never changed, only replaced.  What
is handed over is referred to from then on, unless it is copied: an answer has a
dictionary of its own for metadata, also where one was given for it.

Only what is changed here needs a place.  A dictionary that nothing else refers to may
be held as a value, and what was put under a key counts as the value that it was.
-/

namespace SignedMessaging

/-- What is held as metadata or as content. -/
inductive Held where
  | dictionary (place : Nat)
  | value (v : Value)

namespace Held

/-- Whether what is held is there, where there are so many dictionaries. -/
def Within (count : Nat) : Held → Prop
  | .dictionary place => place < count
  | .value _ => True

instance (count : Nat) : (held : Held) → Decidable (held.Within count)
  | .dictionary place => inferInstanceAs (Decidable (place < count))
  | .value _ => inferInstanceAs (Decidable True)

theorem Within.mono {held : Held} {count more : Nat} (h : held.Within count)
    (hle : count ≤ more) : held.Within more := by
  cases held with
  | dictionary place => exact Nat.lt_of_lt_of_le h hle
  | value _ => trivial

end Held

/-- A message that can be referred to. -/
structure MessageObject where
  header : HeaderSlot
  parentHeader : HeaderSlot
  metadata : Held
  content : Held

/-- What is put in the place of a part of a message. -/
inductive Replacement where
  | header (slot : HeaderSlot)
  | parentHeader (slot : HeaderSlot)
  | metadata (held : Held)
  | content (held : Held)

namespace MessageObject

/-- Whether all that a message holds is there. -/
def Within (count : Nat) (object : MessageObject) : Prop :=
  object.metadata.Within count ∧ object.content.Within count

instance (count : Nat) (object : MessageObject) : Decidable (object.Within count) :=
  inferInstanceAs (Decidable (_ ∧ _))

theorem Within.mono {object : MessageObject} {count more : Nat} (h : object.Within count)
    (hle : count ≤ more) : object.Within more :=
  ⟨h.1.mono hle, h.2.mono hle⟩

end MessageObject

namespace Replacement

/-- The message with a part replaced. -/
def apply : Replacement → MessageObject → MessageObject
  | .header slot, object => { object with header := slot }
  | .parentHeader slot, object => { object with parentHeader := slot }
  | .metadata held, object => { object with metadata := held }
  | .content held, object => { object with content := held }

/-- Whether what is put there is there. -/
def Within (count : Nat) : Replacement → Prop
  | .header _ | .parentHeader _ => True
  | .metadata held | .content held => held.Within count

instance (count : Nat) : (replacement : Replacement) → Decidable (replacement.Within count)
  | .header _ | .parentHeader _ => inferInstanceAs (Decidable True)
  | .metadata held | .content held => inferInstanceAs (Decidable (held.Within count))

theorem within_apply {replacement : Replacement} {object : MessageObject} {count : Nat}
    (h : replacement.Within count) (hobject : object.Within count) :
    (replacement.apply object).Within count := by
  cases replacement with
  | header _ | parentHeader _ => exact hobject
  | metadata _ => exact ⟨h, hobject.2⟩
  | content _ => exact ⟨hobject.1, h⟩

end Replacement

/-- The dictionaries and the messages of an application; all that messages hold is there. -/
structure Objects where
  dictionaries : List Entries := []
  messages : List MessageObject := []
  closed : ∀ object ∈ messages, object.Within dictionaries.length := by simp

namespace Objects

/-- The value of what is held. -/
def shown (objects : Objects) : Held → Value
  | .dictionary place => .dictionary (objects.dictionaries[place]?.getD [])
  | .value v => v

/-- A message as it shows. -/
def shownMessage (objects : Objects) (object : MessageObject) : Message :=
  ⟨object.header, object.parentHeader, objects.shown object.metadata,
    objects.shown object.content⟩

/-- The message at a place, as it shows. -/
def message (objects : Objects) (place : Nat) : Message :=
  (objects.messages[place]?.map objects.shownMessage).getD {}

/-- Make a dictionary. -/
def addDictionary (entries : Entries) (objects : Objects) : Objects where
  dictionaries := objects.dictionaries ++ [entries]
  messages := objects.messages
  closed object h := (objects.closed object h).mono (by simp)

/-- Make a message of what is there. -/
def addMessage (object : MessageObject) (objects : Objects) : Objects :=
  if h : object.Within objects.dictionaries.length then
    { objects with
      messages := objects.messages ++ [object]
      closed := by
        intro other hother
        rcases List.mem_append.1 hother with hother | hother
        · exact objects.closed other hother
        · rwa [List.mem_singleton.1 hother] }
  else objects

/-- Make a message with a dictionary of its own for metadata. -/
def create (header parentHeader : HeaderSlot) (objects : Objects) : Objects :=
  (objects.addDictionary []).addMessage
    ⟨header, parentHeader, .dictionary objects.dictionaries.length, .value .null⟩

/-- Replace a part of a message by what is there. -/
def replace (place : Nat) (replacement : Replacement) (objects : Objects) : Objects :=
  if h : replacement.Within objects.dictionaries.length then
    { objects with
      messages := objects.messages.modify place replacement.apply
      closed := by
        intro object hobject
        obtain ⟨index, hindex⟩ := List.mem_iff_getElem?.1 hobject
        rw [List.getElem?_modify] at hindex
        obtain ⟨before, hbefore, rfl⟩ := Option.map_eq_some_iff.1 hindex
        have hwithin := objects.closed before (List.mem_of_getElem? hbefore)
        split
        · exact Replacement.within_apply h hwithin
        · exact hwithin }
  else objects

/-- Put an entry into a dictionary, where its key can be one. -/
def put (place : Nat) (key value : Value) (objects : Objects) : Objects :=
  match key.unusableKey? with
  | some _ => objects
  | none =>
      { objects with
        dictionaries :=
          objects.dictionaries.modify place fun entries => Entries.put entries key value
        closed := by simpa using objects.closed }

/-- Put an entry into the metadata of a message, where these are a dictionary. -/
def putMetadata (place : Nat) (key value : Value) (objects : Objects) : Objects :=
  match objects.messages[place]?.map MessageObject.metadata, key.unusableKey? with
  | some (.dictionary found), none => objects.put found key value
  | some (.value (.dictionary entries)), none =>
      objects.replace place (.metadata (.value (.dictionary (Entries.put entries key value))))
  | _, _ => objects

end Objects

/-- The making of an object: what it gives, the objects after it, and the randomness that
is left. -/
abbrev Making := ExceptT MessageFault (StateM (Objects × EntropySource))

namespace Making

/-- The objects that there are. -/
def objects : Making Objects := return (← get).1

/-- Do something to the objects. -/
def change (f : Objects → Objects) : Making Unit := modify fun (objects, source) =>
  (f objects, source)

/-- A new identifier. -/
def identifier : Making String := fun (objects, source) =>
  let (result, rest) := Drawing.identifier source
  (result, objects, rest)

/-- Make a message with a dictionary of its own, and give its place. -/
def create (header parentHeader : HeaderSlot) : Making Nat := do
  let place := (← objects).messages.length
  change (Objects.create header parentHeader)
  return place

/-- Make a message that starts a conversation. -/
def newRoot (msgType session username : Value) : Making Nat := do
  let msgId ← identifier
  create (.header ⟨.text msgId, username, session, msgType⟩) (.header {})

/-- Make a message in answer to another, with content and metadata still to be filled in. -/
def newAnswer (msgType : Value) (parent : Nat) : Making Nat := do
  match ((← objects).message parent).header with
  | .other _ => throw .parentNotHeader
  | .header header =>
      let msgId ← identifier
      create (.header ⟨.text msgId, header.username, header.session, msgType⟩) (.header header)

/-- Make a dictionary of what is given, and give its place. -/
def copy (given : Held) : Making Nat := do
  match Entries.ofValue ((← objects).shown given) with
  | .error fault => throw (.notPairs fault)
  | .ok entries =>
      let place := (← objects).dictionaries.length
      change (Objects.addDictionary entries)
      return place

/-- Make a message in answer to another, with what was given as content and a copy of what
was given as metadata.  Where no copy can be made, the message was made for nobody. -/
def respond (msgType : Value) (parent : Nat) (content metadata : Held) : Making Nat := do
  let place ← newAnswer msgType parent
  change (Objects.replace place (.content content))
  match metadata with
  | .value .null => return place
  | given =>
      let dictionary ← copy given
      change (Objects.replace place (.metadata (.dictionary dictionary)))
      return place

end Making

/-- The making of a message. -/
inductive Building where
  | newRoot (msgType session username : Value)
  | newAnswer (msgType : Value) (parent : Nat)
  | respond (msgType : Value) (parent : Nat) (content metadata : Held)

namespace Building

/-- Make the message, and give its place. -/
def run : Building → Making Nat
  | .newRoot msgType session username => Making.newRoot msgType session username
  | .newAnswer msgType parent => Making.newAnswer msgType parent
  | .respond msgType parent content metadata => Making.respond msgType parent content metadata

/-- Whether all that the making refers to is there. -/
def Known (objects : Objects) : Building → Prop
  | .newRoot _ _ _ => True
  | .newAnswer _ parent => parent < objects.messages.length
  | .respond _ parent content metadata =>
      parent < objects.messages.length ∧ content.Within objects.dictionaries.length ∧
        metadata.Within objects.dictionaries.length

instance (objects : Objects) : (building : Building) → Decidable (building.Known objects)
  | .newRoot _ _ _ => inferInstanceAs (Decidable True)
  | .newAnswer _ parent => inferInstanceAs (Decidable (parent < objects.messages.length))
  | .respond _ _ _ _ => inferInstanceAs (Decidable (_ ∧ _ ∧ _))

end Building

/-- What an application does with messages and dictionaries. -/
inductive Deed where
  | build (building : Building)
  | makeDictionary (entries : Entries)
  | makeMessage (object : MessageObject)
  | replace (message : Nat) (replacement : Replacement)
  | putMetadata (message : Nat) (key value : Value)
  | put (dictionary : Nat) (key value : Value)

namespace Deed

/-- The objects and the randomness after a deed; one with what is not there is not done. -/
def run : Deed → Objects × EntropySource → Objects × EntropySource
  | .build building, (objects, source) =>
      if building.Known objects then (building.run (objects, source)).2 else (objects, source)
  | .makeDictionary entries, (objects, source) => (objects.addDictionary entries, source)
  | .makeMessage object, (objects, source) => (objects.addMessage object, source)
  | .replace message replacement, (objects, source) =>
      (objects.replace message replacement, source)
  | .putMetadata message key value, (objects, source) =>
      (objects.putMetadata message key value, source)
  | .put dictionary key value, (objects, source) => (objects.put dictionary key value, source)

/-- Do one deed after another. -/
def runAll (deeds : List Deed) (start : Objects × EntropySource) : Objects × EntropySource :=
  deeds.foldl (fun held deed => deed.run held) start

end Deed

end SignedMessaging
