import SignedMessaging.Proofs.Message.Objects

/-!
# Messages built are snapshots

The metadata of a message that was built are a dictionary that no other message has
(`Objects.Stands`).  So the message stays as it is until a deed goes through it, puts into
this dictionary, or hands it on to another message; every other deed leaves it standing
(`Stands.run`), and so do any number of them (`Stands.runAll`).  A deed that refers only to
what was there before the message is one of these (`Deed.spares_of_known`).
-/

namespace SignedMessaging

namespace Deed

/-- Whether a deed neither goes through the message at a place or its metadata, nor makes these
the metadata of another message. -/
def Spares (place : Nat) (metadata : Held) : Deed → Prop
  | .build _ | .makeDictionary _ => True
  | .makeMessage object => object.metadata ≠ metadata
  | .replace message replacement => message ≠ place ∧ replacement ≠ .metadata metadata
  | .putMetadata message _ _ => message ≠ place
  | .put dictionary _ _ => Held.dictionary dictionary ≠ metadata

/-- Whether all that a deed refers to is there. -/
def Known (objects : Objects) : Deed → Prop
  | .build building => building.Known objects
  | .makeDictionary _ => True
  | .makeMessage object => object.Within objects.dictionaries.length
  | .replace message replacement =>
      message < objects.messages.length ∧ replacement.Within objects.dictionaries.length
  | .putMetadata message _ _ => message < objects.messages.length
  | .put dictionary _ _ => dictionary < objects.dictionaries.length

end Deed

namespace Objects

/-- A message stands at a place, its metadata are a dictionary with certain entries, and no
other message has this dictionary for metadata. -/
structure Stands (objects : Objects) (place : Nat) (object : MessageObject) (dictionary : Nat)
    (entries : Entries) : Prop where
  message : objects.messages[place]? = some object
  metadata : object.metadata = .dictionary dictionary
  entries : objects.dictionaries[dictionary]? = some entries
  alone : ∀ {other : Nat} {found : MessageObject}, objects.messages[other]? = some found →
    found.metadata = .dictionary dictionary → other = place

namespace Stands

variable {objects after : Objects} {place dictionary : Nat} {object : MessageObject}
  {entries : Entries}

/-- Its headers and metadata show as they stand. -/
theorem shows (h : objects.Stands place object dictionary entries) :
    objects.message place = ⟨object.header, object.parentHeader, .dictionary entries,
      objects.shown object.content⟩ := by
  simp [Objects.message, Objects.shownMessage, h.message, h.metadata, Objects.shown, h.entries]

theorem lt_length (h : objects.Stands place object dictionary entries) :
    dictionary < objects.dictionaries.length :=
  (List.getElem?_eq_some_iff.1 h.entries).1

/-- A message that is added has other metadata. -/
theorem of_grows {content : Held} {added : Option MessageObject}
    (h : objects.Stands place object dictionary entries)
    (hgrows : Grows content objects after added) :
    after.Stands place object dictionary entries where
  message := by
    rw [hgrows.extends.getElem?_messages (List.getElem?_eq_some_iff.1 h.message).1, h.message]
  metadata := h.metadata
  entries := by rw [hgrows.extends.getElem?_dictionaries h.lt_length, h.entries]
  alone {other found} hother hfound := by
    rw [hgrows.messages] at hother
    rcases getElem?_added _ hother with hbefore | ⟨-, hadded⟩
    · exact h.alone hbefore hfound
    · obtain ⟨fresh, hfresh, hle⟩ := hgrows.metadata found hadded
      obtain rfl : fresh = dictionary := by simpa [hfresh] using hfound
      exact absurd h.lt_length (Nat.not_lt.2 hle)

theorem addDictionary (h : objects.Stands place object dictionary entries) (more : Entries) :
    (objects.addDictionary more).Stands place object dictionary entries where
  message := h.message
  metadata := h.metadata
  entries := by rw [dictionaries_addDictionary, List.getElem?_append_left h.lt_length, h.entries]
  alone := h.alone

theorem addMessage (h : objects.Stands place object dictionary entries) {other : MessageObject}
    (hother : other.metadata ≠ .dictionary dictionary) :
    (objects.addMessage other).Stands place object dictionary entries := by
  by_cases hwithin : other.Within objects.dictionaries.length
  · have hmessages := messages_addMessage hwithin
    refine ⟨?_, h.metadata, by rw [dictionaries_addMessage, h.entries], ?_⟩
    · rw [hmessages, List.getElem?_append_left (List.getElem?_eq_some_iff.1 h.message).1, h.message]
    · intro index found hindex hfound
      rw [hmessages] at hindex
      rcases getElem?_added (some other) hindex with hbefore | ⟨-, hadded⟩
      · exact h.alone hbefore hfound
      · cases hadded
        exact absurd hfound hother
  · rwa [Objects.addMessage, dif_neg hwithin]

theorem replace (h : objects.Stands place object dictionary entries) {other : Nat}
    {replacement : Replacement} (hother : other ≠ place)
    (hreplacement : replacement ≠ .metadata (.dictionary dictionary)) :
    (objects.replace other replacement).Stands place object dictionary entries := by
  by_cases hwithin : replacement.Within objects.dictionaries.length
  · have hmessages : (objects.replace other replacement).messages =
        objects.messages.modify other replacement.apply := messages_replace hwithin
    refine ⟨?_, h.metadata, by rw [dictionaries_replace, h.entries], ?_⟩
    · rw [hmessages, List.getElem?_modify, h.message]
      simp [hother]
    · intro index found hindex hfound
      rw [hmessages, List.getElem?_modify] at hindex
      obtain ⟨before, hbefore, rfl⟩ := Option.map_eq_some_iff.1 hindex
      by_cases hsame : other = index
      · rw [if_pos hsame] at hfound
        cases replacement with
        | metadata held => exact absurd (congrArg Replacement.metadata hfound) hreplacement
        | _ => exact h.alone hbefore hfound
      · rw [if_neg hsame] at hfound
        exact h.alone hbefore hfound
  · rwa [Objects.replace, dif_neg hwithin]

theorem put (h : objects.Stands place object dictionary entries) {other : Nat}
    (hother : other ≠ dictionary) (key value : Value) :
    (objects.put other key value).Stands place object dictionary entries := by
  cases hkey : key.unusableKey? with
  | some kind =>
      unfold Objects.put
      rwa [hkey]
  | none =>
      refine ⟨by rw [messages_put, h.message], h.metadata, ?_, ?_⟩
      · rw [dictionaries_put hkey, List.getElem?_modify, h.entries]
        simp [hother]
      · rw [messages_put]
        exact h.alone

theorem putMetadata (h : objects.Stands place object dictionary entries) {other : Nat}
    (hother : other ≠ place) (key value : Value) :
    (objects.putMetadata other key value).Stands place object dictionary entries := by
  unfold Objects.putMetadata
  split
  · next found hfound _ =>
      obtain ⟨message, hmessage, hmetadata⟩ := Option.map_eq_some_iff.1 hfound
      refine h.put ?_ key value
      rintro rfl
      exact hother (h.alone hmessage hmetadata)
  · exact h.replace hother (by rintro ⟨⟩)
  · exact h

/-- A deed that spares the message leaves it standing. -/
theorem run (h : objects.Stands place object dictionary entries) (source : EntropySource)
    {deed : Deed} (hdeed : deed.Spares place (.dictionary dictionary)) :
    (deed.run (objects, source)).1.Stands place object dictionary entries := by
  cases deed with
  | build building =>
      rw [Deed.run]
      split
      · next hknown =>
          have hmakes := building.makes hknown source
          generalize building.composition objects source = composed at hmakes
          generalize building.run (objects, source) = result at hmakes
          cases hmakes with
          | refused _ _ hgrows => exact h.of_grows hgrows
          | made _ hgrows _ => exact h.of_grows hgrows
      · exact h
  | makeDictionary more => exact h.addDictionary more
  | makeMessage other => exact h.addMessage hdeed
  | replace other replacement => exact h.replace hdeed.1 hdeed.2
  | putMetadata other key value => exact h.putMetadata hdeed key value
  | put other key value =>
      exact h.put (fun hsame => hdeed (congrArg Held.dictionary hsame)) key value

/-- So do any number of them. -/
theorem runAll (h : objects.Stands place object dictionary entries) {deeds : List Deed}
    (source : EntropySource)
    (hdeeds : ∀ deed ∈ deeds, deed.Spares place (.dictionary dictionary)) :
    (Deed.runAll deeds (objects, source)).1.Stands place object dictionary entries := by
  induction deeds generalizing objects source with
  | nil => exact h
  | cons deed rest ih =>
      rw [List.forall_mem_cons] at hdeeds
      exact ih (h.run source hdeeds.1) _ hdeeds.2

end Stands
end Objects

namespace Deed

/-- A deed that refers only to what was there before a message spares the message. -/
theorem spares_of_known {deed : Deed} {objects : Objects} {place dictionary : Nat}
    (hknown : deed.Known objects) (hplace : objects.messages.length ≤ place)
    (hdictionary : objects.dictionaries.length ≤ dictionary) :
    deed.Spares place (.dictionary dictionary) := by
  have hheld : ∀ held : Held, held.Within objects.dictionaries.length →
      held ≠ .dictionary dictionary := by
    rintro _ hwithin rfl
    exact Nat.not_lt.2 hdictionary hwithin
  cases deed with
  | build _ | makeDictionary _ => trivial
  | makeMessage object => exact hheld object.metadata hknown.1
  | replace message replacement =>
      refine ⟨Nat.ne_of_lt (Nat.lt_of_lt_of_le hknown.1 hplace), ?_⟩
      rintro rfl
      exact hheld (.dictionary dictionary) hknown.2 rfl
  | putMetadata message _ _ => exact Nat.ne_of_lt (Nat.lt_of_lt_of_le hknown hplace)
  | put other _ _ => exact hheld (.dictionary other) hknown

end Deed

namespace Building

/-- What a making is to what was there, to what is composed of values, and to what is done
later; `taken` is what the making gives, with the objects and the randomness after it. -/
structure IsSnapshot (building : Building) (objects : Objects) (source : EntropySource)
    (taken : Except MessageFault Nat × Objects × EntropySource) : Prop where
  /-- Whether or not it is refused, what was there is there as it was, and shows so. -/
  spared : objects.Extends taken.2.1 ∧
    ∀ other < objects.messages.length, taken.2.1.message other = objects.message other
  /-- It gives a message that shows what is composed, or is refused as the composition is. -/
  shown : (taken.1.map taken.2.1.message, taken.2.2) = building.composition objects source
  /-- A message that it gives keeps its headers and its metadata through all deeds that spare
  it, and those that refer to nothing but what was there before do so. -/
  stays : ∀ place, taken.1 = .ok place → objects.messages.length ≤ place ∧
    ∃ object, taken.2.1.messages[place]? = some object ∧
      (∀ deed : Deed, deed.Known objects → deed.Spares place object.metadata) ∧
      ∀ deeds, (∀ deed ∈ deeds, deed.Spares place object.metadata) →
        ∃ content, (Deed.runAll deeds taken.2).1.message place =
          { taken.2.1.message place with content }

/-- The message that a making adds stands alone with its metadata. -/
theorem stands_of_grows {content : Held} {objects after : Objects} {object : MessageObject}
    (hgrows : Objects.Grows content objects after (some object)) :
    ∃ dictionary entries, objects.dictionaries.length ≤ dictionary ∧
      after.Stands objects.messages.length object dictionary entries := by
  obtain ⟨dictionary, hmetadata, hfresh⟩ := hgrows.metadata object rfl
  have hmessage : after.messages[objects.messages.length]? = some object := by
    rw [hgrows.messages]
    exact List.getElem?_concat_length
  have hthere : dictionary < after.dictionaries.length := by
    have hwithin := (after.closed object (List.mem_of_getElem? hmessage)).1
    rwa [hmetadata] at hwithin
  refine ⟨dictionary, _, hfresh, hmessage, hmetadata, List.getElem?_eq_getElem hthere, ?_⟩
  intro other found hother hfound
  rw [hgrows.messages] at hother
  rcases Objects.getElem?_added _ hother with hbefore | ⟨hlast, -⟩
  · -- What was there before can only hold what was there before.
    have hwithin := (objects.closed found (List.mem_of_getElem? hbefore)).1
    rw [hfound] at hwithin
    exact absurd hwithin (Nat.not_lt.2 hfresh)
  · exact hlast

/-- A message that is built is a snapshot. -/
theorem isSnapshot (building : Building) {objects : Objects} (hknown : building.Known objects)
    (source : EntropySource) :
    building.IsSnapshot objects source (building.run (objects, source)) := by
  have hmakes := building.makes hknown source
  generalize hcomposed : building.composition objects source = composed at hmakes
  generalize building.run (objects, source) = taken at hmakes ⊢
  cases hmakes with
  | refused fault rest hgrows =>
      exact ⟨⟨hgrows.extends, fun _ => hgrows.extends.message⟩, hcomposed.symm, by rintro _ ⟨⟩⟩
  | made rest hgrows hshown =>
      obtain ⟨dictionary, entries, hfresh, hstands⟩ := stands_of_grows hgrows
      refine ⟨⟨hgrows.extends, fun _ => hgrows.extends.message⟩, ?_, ?_⟩
      · rw [hcomposed, ← hshown]
        simp [Except.map, Objects.message, hstands.message]
      · rintro _ ⟨⟩
        refine ⟨Nat.le_refl _, _, hstands.message, ?_, fun deeds hdeeds => ?_⟩
        · intro deed hdeed
          rw [hstands.metadata]
          exact Deed.spares_of_known hdeed (Nat.le_refl _) hfresh
        · rw [hstands.metadata] at hdeeds
          have hafter := hstands.runAll rest hdeeds
          rw [hafter.shows, hstands.shows]
          exact ⟨_, rfl⟩

end Building
end SignedMessaging
