import SignedMessaging.Proofs.Message.Snapshots
import SignedMessaging.Session.Step

/-!
# Messages by value

A session keeps its messages by value, and changes them by values that are handed over.  That
is exact where no dictionary is shared (`Objects.Apart`): a change of one message shows in that
message and in no other (`Objects.message_edit`, `Objects.Apart.message_putMetadata`).  Messages
that are built or made of values, and changes by values, leave dictionaries apart
(`Objects.Apart.of_grows`, `Objects.Apart.addMessage`, `Objects.Apart.replace`,
`Objects.Apart.putMetadata`).
-/

namespace SignedMessaging

/-- What is put in the place of a part by a change. -/
def Replacement.ofEdit : Edit → Replacement
  | .header slot => .header slot
  | .parentHeader slot => .parentHeader slot
  | .metadata v => .metadata (.value v)
  | .content v => .content (.value v)

namespace Objects

variable {objects after : Objects} {place other : Nat}

/-- No dictionary is the metadata of two messages, and none is held as content. -/
structure Apart (objects : Objects) : Prop where
  metadata : ∀ {first second dictionary : Nat} {a b : MessageObject},
    objects.messages[first]? = some a → objects.messages[second]? = some b →
    a.metadata = .dictionary dictionary → b.metadata = .dictionary dictionary → first = second
  content : ∀ object ∈ objects.messages, ∃ v, object.content = .value v

theorem within_ofEdit (change : Edit) (count : Nat) : (Replacement.ofEdit change).Within count := by
  cases change <;> trivial

theorem shownMessage_ofEdit (objects : Objects) (change : Edit) (object : MessageObject) :
    objects.shownMessage ((Replacement.ofEdit change).apply object) =
      change.apply (objects.shownMessage object) := by
  cases change <;> rfl

/-- A change by a value shows in the message that is changed, and in no other. -/
theorem message_edit (change : Edit) (hplace : place < objects.messages.length) :
    (objects.replace place (.ofEdit change)).message other =
      if other = place then change.apply (objects.message place) else objects.message other := by
  have hshown : (objects.replace place (.ofEdit change)).shownMessage = objects.shownMessage := by
    funext object
    simp only [shownMessage, shown, dictionaries_replace]
  rw [message, messages_replace (within_ofEdit change _), List.getElem?_modify, hshown]
  by_cases hother : other = place
  · subst hother
    simp [message, hplace, shownMessage_ofEdit]
  · have hne : place ≠ other := fun h => hother h.symm
    simp [message, hother, hne]

theorem shown_put_of_ne {held : Held} (h : held ≠ .dictionary place) (key value : Value) :
    (objects.put place key value).shown held = objects.shown held := by
  cases hkey : key.unusableKey? with
  | some _ => rw [put, hkey]
  | none =>
      cases held with
      | value _ => rfl
      | dictionary found =>
          have hne : place ≠ found := fun hsame => h (congrArg Held.dictionary hsame.symm)
          simp [shown, dictionaries_put hkey, hne]

theorem shown_put_self {key : Value} (hkey : key.unusableKey? = none)
    (hplace : place < objects.dictionaries.length) (value : Value) :
    (objects.put place key value).shown (.dictionary place) =
      .dictionary (Entries.put (objects.dictionaries[place]?.getD []) key value) := by
  simp [shown, dictionaries_put hkey, hplace]

namespace Apart

/-- What is put into the dictionary of a message shows in that message, and in no other. -/
theorem message_put (h : objects.Apart) {object : MessageObject} {dictionary : Nat} {key : Value}
    (hobject : objects.messages[place]? = some object)
    (hmetadata : object.metadata = .dictionary dictionary) (hkey : key.unusableKey? = none)
    (value : Value) :
    (objects.put dictionary key value).message other =
      if other = place then
        { objects.message place with
          metadata := .dictionary
            (Entries.put (objects.dictionaries[dictionary]?.getD []) key value) }
      else objects.message other := by
  have hcontent : ∀ {index : Nat} {seen : MessageObject}, objects.messages[index]? = some seen →
      (objects.put dictionary key value).shown seen.content = objects.shown seen.content := by
    intro index seen hseen
    obtain ⟨v, hv⟩ := h.content seen (List.mem_of_getElem? hseen)
    rw [hv]
    rfl
  rw [message, messages_put]
  by_cases hother : other = place
  · subst hother
    have hthere := (objects.closed object (List.mem_of_getElem? hobject)).1
    rw [hmetadata] at hthere
    simp only [if_true, message, hobject, Option.map_some, Option.getD_some, shownMessage,
      hcontent hobject, hmetadata, shown_put_self hkey hthere]
  · rw [if_neg hother, message]
    cases hseen : objects.messages[other]? with
    | none => rfl
    | some seen =>
        have hne : seen.metadata ≠ .dictionary dictionary := fun hsame =>
          hother (h.metadata hseen hobject hsame hmetadata)
        simp only [Option.map_some, Option.getD_some, shownMessage, hcontent hseen,
          shown_put_of_ne hne]

/-- What is put into the metadata of a message shows in that message, and in no other. -/
theorem message_putMetadata (h : objects.Apart) (key : String) (value : Value)
    (hplace : place < objects.messages.length) :
    (objects.putMetadata place (.text key) value).message other =
      if other = place then
        (Message.putMetadata key value (objects.message place)).toOption.getD
          (objects.message place)
      else objects.message other := by
  have hobject : objects.messages[place]? = some objects.messages[place] :=
    List.getElem?_eq_getElem hplace
  generalize objects.messages[place] = object at hobject
  have hmessage : objects.message place = objects.shownMessage object := by
    simp [message, hobject]
  have hkey : (Value.text key).unusableKey? = none := rfl
  cases hmetadata : object.metadata with
  | dictionary found =>
      have hput : objects.putMetadata place (.text key) value =
          objects.put found (.text key) value := by
        simp [putMetadata, hobject, hmetadata, hkey]
      rw [hput, h.message_put hobject hmetadata hkey, hmessage, shownMessage, hmetadata]
      rfl
  | value v =>
      cases v with
      | dictionary entries =>
          have hput : objects.putMetadata place (.text key) value = objects.replace place
              (.ofEdit (.metadata (.dictionary (Entries.put entries (.text key) value)))) := by
            simp [putMetadata, hobject, hmetadata, hkey, Replacement.ofEdit]
          rw [hput, message_edit _ hplace, hmessage, shownMessage, hmetadata]
          rfl
      | _ =>
          -- Nothing can be put into metadata that are no dictionary.
          have hput : objects.putMetadata place (.text key) value = objects := by
            simp [putMetadata, hobject, hmetadata]
          have hrefused : (Message.putMetadata key value (objects.message place)).toOption.getD
              (objects.message place) = objects.message place := by
            rw [hmessage, shownMessage, hmetadata]
            rfl
          rw [hput, hrefused]
          split
          · next hother => rw [hother]
          · rfl

/-! ### Staying apart -/

theorem of_grows (h : objects.Apart) {v : Value} {added : Option MessageObject}
    (hgrows : Grows (.value v) objects after added) : after.Apart where
  metadata {first second dictionary a b} ha hb hfirst hsecond := by
    -- What was there does not hold the dictionary of the message that is added.
    have hfresh : ∀ {index : Nat} {seen last : MessageObject},
        objects.messages[index]? = some seen → added = some last →
        seen.metadata = .dictionary dictionary → last.metadata ≠ .dictionary dictionary := by
      intro index seen last hseen hlast hmetadata hsame
      obtain ⟨fresh, hfresh, hle⟩ := hgrows.metadata last hlast
      obtain rfl : fresh = dictionary := by simpa [hfresh] using hsame
      have hwithin := (objects.closed seen (List.mem_of_getElem? hseen)).1
      rw [hmetadata] at hwithin
      exact Nat.not_lt.2 hle hwithin
    rw [hgrows.messages] at ha hb
    rcases getElem?_added _ ha with ha | ⟨hfirstLast, ha⟩ <;>
      rcases getElem?_added _ hb with hb | ⟨hsecondLast, hb⟩
    · exact h.metadata ha hb hfirst hsecond
    · exact absurd hsecond (hfresh ha hb hfirst)
    · exact absurd hfirst (hfresh hb ha hsecond)
    · rw [hfirstLast, hsecondLast]
  content object hobject := by
    rw [hgrows.messages, List.mem_append] at hobject
    rcases hobject with hbefore | hadded
    · exact h.content object hbefore
    · exact ⟨v, hgrows.content object (by simpa using hadded)⟩

theorem addMessage (h : objects.Apart) {object : MessageObject} {v w : Value}
    (hmetadata : object.metadata = .value v) (hcontent : object.content = .value w) :
    (objects.addMessage object).Apart := by
  have hwithin : object.Within objects.dictionaries.length := by
    rw [MessageObject.Within, hmetadata, hcontent]
    exact ⟨trivial, trivial⟩
  have hmessages := messages_addMessage hwithin
  refine ⟨?_, ?_⟩
  · intro first second dictionary a b ha hb hfirst hsecond
    rw [hmessages] at ha hb
    rcases getElem?_added (some object) ha with ha | ⟨-, ha⟩
    · rcases getElem?_added (some object) hb with hb | ⟨-, hb⟩
      · exact h.metadata ha hb hfirst hsecond
      · cases hb
        cases hmetadata.symm.trans hsecond
    · cases ha
      cases hmetadata.symm.trans hfirst
  · intro other hother
    rw [hmessages, List.mem_append, List.mem_singleton] at hother
    rcases hother with hbefore | rfl
    · exact h.content other hbefore
    · exact ⟨w, hcontent⟩

/-- A change by a value gives a message no dictionary that it did not have. -/
theorem of_mem_replace {index : Nat} {seen : MessageObject} (change : Edit)
    (hseen : (objects.replace place (.ofEdit change)).messages[index]? = some seen) :
    ∃ before, objects.messages[index]? = some before ∧
      (∀ dictionary, seen.metadata = .dictionary dictionary →
        before.metadata = .dictionary dictionary) ∧
      ((∃ v, before.content = .value v) → ∃ v, seen.content = .value v) := by
  rw [messages_replace (within_ofEdit change _), List.getElem?_modify] at hseen
  obtain ⟨before, hbefore, rfl⟩ := Option.map_eq_some_iff.1 hseen
  refine ⟨before, hbefore, ?_⟩
  split
  · cases change with
    | header _ | parentHeader _ => exact ⟨fun _ => id, id⟩
    | metadata _ => exact ⟨by rintro _ ⟨⟩, id⟩
    | content v => exact ⟨fun _ => id, fun _ => ⟨v, rfl⟩⟩
  · exact ⟨fun _ => id, id⟩

theorem replace (h : objects.Apart) (place : Nat) (change : Edit) :
    (objects.replace place (.ofEdit change)).Apart where
  metadata ha hb hfirst hsecond := by
    obtain ⟨_, ha, hmetadata, -⟩ := of_mem_replace change ha
    obtain ⟨_, hb, hmetadata', -⟩ := of_mem_replace change hb
    exact h.metadata ha hb (hmetadata _ hfirst) (hmetadata' _ hsecond)
  content object hobject := by
    obtain ⟨index, hindex⟩ := List.mem_iff_getElem?.1 hobject
    obtain ⟨before, hbefore, -, hcontent⟩ := of_mem_replace change hindex
    exact hcontent (h.content before (List.mem_of_getElem? hbefore))

theorem put (h : objects.Apart) (dictionary : Nat) (key value : Value) :
    (objects.put dictionary key value).Apart := by
  refine ⟨?_, ?_⟩
  · rw [messages_put]
    exact h.metadata
  · rw [messages_put]
    exact h.content

theorem putMetadata (h : objects.Apart) (place : Nat) (key value : Value) :
    (objects.putMetadata place key value).Apart := by
  unfold Objects.putMetadata
  split
  · exact h.put _ key value
  · exact h.replace place (.metadata _)
  · exact h

end Apart
end Objects
end SignedMessaging
