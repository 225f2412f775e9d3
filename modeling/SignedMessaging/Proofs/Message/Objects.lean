import SignedMessaging.Message.Objects
import SignedMessaging.Proofs.Message.Composition

/-!
# Messages as objects

What the objects hold after each change is read off the change (`messages_replace`,
`dictionaries_put` and the like).  A making changes nothing of what is there, and adds
dictionaries and at most one message (`Grows`).  The message that it gives shows what is
composed of the values that show, and where it gives none the composition is refused too
(`Building.makes`).
-/

namespace SignedMessaging

namespace Objects

variable {objects before after : Objects} {object : MessageObject} {held : Held}
  {replacement : Replacement} {place : Nat}

/-! ### What a change does -/

@[simp]
theorem dictionaries_addDictionary (entries : Entries) :
    (objects.addDictionary entries).dictionaries = objects.dictionaries ++ [entries] := rfl

@[simp]
theorem dictionaries_addMessage :
    (objects.addMessage object).dictionaries = objects.dictionaries := by
  unfold addMessage
  split <;> rfl

theorem messages_addMessage (h : object.Within objects.dictionaries.length) :
    (objects.addMessage object).messages = objects.messages ++ [object] := by
  rw [addMessage, dif_pos h]

@[simp]
theorem dictionaries_replace :
    (objects.replace place replacement).dictionaries = objects.dictionaries := by
  unfold replace
  split <;> rfl

theorem messages_replace (h : replacement.Within objects.dictionaries.length) :
    (objects.replace place replacement).messages =
      objects.messages.modify place replacement.apply := by
  rw [replace, dif_pos h]

theorem length_messages_replace :
    (objects.replace place replacement).messages.length = objects.messages.length := by
  unfold replace
  split
  · exact List.length_modify _ _ _
  · rfl

@[simp]
theorem messages_put (key value : Value) :
    (objects.put place key value).messages = objects.messages := by
  unfold put
  split <;> rfl

theorem dictionaries_put {key : Value} (h : key.unusableKey? = none) (value : Value) :
    (objects.put place key value).dictionaries =
      objects.dictionaries.modify place fun entries => Entries.put entries key value := by
  unfold put
  split
  · next hsome => cases h.symm.trans hsome
  · rfl

theorem length_messages_putMetadata (key value : Value) :
    (objects.putMetadata place key value).messages.length = objects.messages.length := by
  unfold putMetadata
  split
  · rw [messages_put]
  · exact length_messages_replace
  · rfl

/-! ### Adding to what is there -/

/-- What was there is there, in its place and as it was. -/
structure Extends (before after : Objects) : Prop where
  dictionaries : before.dictionaries <+: after.dictionaries
  messages : before.messages <+: after.messages

theorem Extends.getElem?_dictionaries (h : before.Extends after)
    (hplace : place < before.dictionaries.length) :
    after.dictionaries[place]? = before.dictionaries[place]? := by
  obtain ⟨more, hmore⟩ := h.dictionaries
  rw [← hmore, List.getElem?_append_left hplace]

theorem Extends.getElem?_messages (h : before.Extends after)
    (hplace : place < before.messages.length) :
    after.messages[place]? = before.messages[place]? := by
  obtain ⟨more, hmore⟩ := h.messages
  rw [← hmore, List.getElem?_append_left hplace]

/-- What is held shows as before. -/
theorem Extends.shown (h : before.Extends after)
    (hheld : held.Within before.dictionaries.length) : after.shown held = before.shown held := by
  cases held with
  | dictionary found => simp only [Objects.shown, h.getElem?_dictionaries hheld]
  | value _ => rfl

theorem Extends.shownMessage (h : before.Extends after)
    (hobject : object.Within before.dictionaries.length) :
    after.shownMessage object = before.shownMessage object := by
  simp only [Objects.shownMessage, h.shown hobject.1, h.shown hobject.2]

/-- A message shows as before, content and all. -/
theorem Extends.message (h : before.Extends after) (hplace : place < before.messages.length) :
    after.message place = before.message place := by
  have hobject : before.messages[place]? = some before.messages[place] :=
    List.getElem?_eq_getElem hplace
  simp only [Objects.message, h.getElem?_messages hplace, hobject, Option.map_some,
    Option.getD_some, h.shownMessage (before.closed _ (List.getElem_mem hplace))]

/-! ### Adding a message -/

/-- At most one message is added, with a content that was given; its metadata are one of the
dictionaries that are added. -/
structure Grows (content : Held) (before after : Objects) (added : Option MessageObject) :
    Prop where
  dictionaries : before.dictionaries <+: after.dictionaries
  messages : after.messages = before.messages ++ added.toList
  metadata : ∀ object ∈ added, ∃ dictionary,
    object.metadata = .dictionary dictionary ∧ before.dictionaries.length ≤ dictionary
  content : ∀ object ∈ added, object.content = content

/-- What stands in a list to which at most one thing was added, stood there before or is that. -/
theorem getElem?_added {α : Type} {xs : List α} {index : Nat} {x : α} (added : Option α)
    (h : (xs ++ added.toList)[index]? = some x) :
    xs[index]? = some x ∨ index = xs.length ∧ added = some x := by
  rcases Nat.lt_or_ge index xs.length with hlt | hge
  · exact .inl (by rwa [List.getElem?_append_left hlt] at h)
  · rw [List.getElem?_append_right hge] at h
    cases added with
    | none => simp at h
    | some last =>
        have hlast := (List.getElem?_eq_some_iff.1 h).1
        simp only [Option.toList_some, List.length_singleton] at hlast
        obtain rfl : index = xs.length := by omega
        exact .inr ⟨rfl, by simpa using h⟩

theorem Grows.extends {content : Held} {added : Option MessageObject}
    (h : Grows content before after added) : before.Extends after :=
  ⟨h.dictionaries, h.messages ▸ List.prefix_append _ _⟩

theorem Grows.refl (content : Held) (objects : Objects) : Grows content objects objects none where
  dictionaries := List.prefix_refl _
  messages := (List.append_nil _).symm
  metadata := by rintro _ ⟨⟩
  content := by rintro _ ⟨⟩

variable (header parentHeader : HeaderSlot) (entries : Entries) {content : Held}

@[simp]
theorem dictionaries_create : (objects.create header parentHeader).dictionaries =
    objects.dictionaries ++ [[]] := by
  rw [create, dictionaries_addMessage, dictionaries_addDictionary]

theorem messages_create : (objects.create header parentHeader).messages = objects.messages ++
    [⟨header, parentHeader, .dictionary objects.dictionaries.length, .value .null⟩] :=
  messages_addMessage ⟨by simp [Held.Within], trivial⟩

theorem grows_create :
    Grows (.value .null) objects (objects.create header parentHeader)
      (some ⟨header, parentHeader, .dictionary objects.dictionaries.length, .value .null⟩) where
  dictionaries := by
    rw [dictionaries_create]
    exact List.prefix_append _ _
  messages := messages_create header parentHeader
  metadata := by
    rintro _ ⟨⟩
    exact ⟨_, rfl, Nat.le_refl _⟩
  content := by
    rintro _ ⟨⟩
    rfl

/-- A new message shows empty metadata and no content. -/
theorem shownMessage_create : (objects.create header parentHeader).shownMessage
      ⟨header, parentHeader, .dictionary objects.dictionaries.length, .value .null⟩ =
    ⟨header, parentHeader, .dictionary [], .null⟩ := by
  simp only [shownMessage, shown, dictionaries_create, List.getElem?_concat_length,
    Option.getD_some]

/-- A part of the message that stands last can be replaced there. -/
theorem messages_replace_last {rest : List MessageObject} (h : objects.messages = rest ++ [object])
    (hreplacement : replacement.Within objects.dictionaries.length) :
    (objects.replace rest.length replacement).messages = rest ++ [replacement.apply object] := by
  rw [messages_replace hreplacement, h, List.modify_eq_take_cons_drop (by simp)]
  simp

/-- The objects when a message was made and has its content. -/
def withContent (objects : Objects) (header parentHeader : HeaderSlot) (content : Held) :
    Objects :=
  (objects.create header parentHeader).replace objects.messages.length (.content content)

/-- The objects when the message has metadata too. -/
def withMetadata (objects : Objects) (header parentHeader : HeaderSlot) (content : Held)
    (entries : Entries) : Objects :=
  let filled := objects.withContent header parentHeader content
  (filled.addDictionary entries).replace objects.messages.length
    (.metadata (.dictionary filled.dictionaries.length))

theorem dictionaries_withContent :
    (objects.withContent header parentHeader content).dictionaries =
      objects.dictionaries ++ [[]] := by
  rw [withContent, dictionaries_replace, dictionaries_create]

theorem dictionaries_withMetadata :
    (objects.withMetadata header parentHeader content entries).dictionaries =
      objects.dictionaries ++ [[]] ++ [entries] := by
  rw [withMetadata, dictionaries_replace, dictionaries_addDictionary, dictionaries_withContent]

variable (hcontent : content.Within objects.dictionaries.length)
include hcontent

theorem grows_withContent :
    Grows content objects (objects.withContent header parentHeader content)
      (some ⟨header, parentHeader, .dictionary objects.dictionaries.length, content⟩) where
  dictionaries := by
    rw [dictionaries_withContent]
    exact List.prefix_append _ _
  messages := messages_replace_last (messages_create header parentHeader)
    (hcontent.mono (by simp))
  metadata := by
    rintro _ ⟨⟩
    exact ⟨_, rfl, Nat.le_refl _⟩
  content := by
    rintro _ ⟨⟩
    rfl

theorem grows_withMetadata :
    Grows content objects (objects.withMetadata header parentHeader content entries)
      (some ⟨header, parentHeader, .dictionary (objects.dictionaries.length + 1), content⟩) where
  dictionaries := by
    rw [dictionaries_withMetadata, List.append_assoc]
    exact List.prefix_append _ _
  messages := by
    have hfilled : ((objects.withContent header parentHeader content).addDictionary
        entries).messages = objects.messages ++
          [⟨header, parentHeader, .dictionary objects.dictionaries.length, content⟩] :=
      (grows_withContent header parentHeader hcontent).messages
    have hcopy : (Replacement.metadata (.dictionary
        (objects.withContent header parentHeader content).dictionaries.length)).Within
          ((objects.withContent header parentHeader content).addDictionary
            entries).dictionaries.length := by
      simp [Replacement.Within, Held.Within]
    rw [withMetadata, messages_replace_last hfilled hcopy, dictionaries_withContent,
      List.length_append]
    rfl
  metadata := by
    rintro _ ⟨⟩
    exact ⟨_, rfl, Nat.le_succ _⟩
  content := by
    rintro _ ⟨⟩
    rfl

theorem shownMessage_withContent :
    (objects.withContent header parentHeader content).shownMessage
      ⟨header, parentHeader, .dictionary objects.dictionaries.length, content⟩ =
    ⟨header, parentHeader, .dictionary [], objects.shown content⟩ := by
  have hextends := (grows_withContent header parentHeader hcontent).extends
  rw [shownMessage, hextends.shown hcontent]
  simp [shown, dictionaries_withContent]

theorem shownMessage_withMetadata :
    (objects.withMetadata header parentHeader content entries).shownMessage
      ⟨header, parentHeader, .dictionary (objects.dictionaries.length + 1), content⟩ =
    ⟨header, parentHeader, .dictionary entries, objects.shown content⟩ := by
  have hextends := (grows_withMetadata header parentHeader entries hcontent).extends
  rw [shownMessage, hextends.shown hcontent]
  simp [shown, dictionaries_withMetadata]

end Objects

namespace Making

variable {α β : Type}

theorem bind_apply (making : Making α) (next : α → Making β) (held : Objects × EntropySource) :
    (making >>= next) held =
      match making held with
      | (.ok a, after) => next a after
      | (.error fault, after) => (.error fault, after) := by
  simp only [bind, ExceptT.bind, ExceptT.mk, StateT.bind]
  rcases making held with ⟨_ | _, _⟩ <;> rfl

theorem objects_bind (next : Objects → Making β) (objects : Objects) (source : EntropySource) :
    (Making.objects >>= next) (objects, source) = next objects (objects, source) := rfl

theorem change_bind (f : Objects → Objects) (next : Unit → Making β) (objects : Objects)
    (source : EntropySource) :
    (change f >>= next) (objects, source) = next () (f objects, source) := rfl

theorem identifier_eq (objects : Objects) (source : EntropySource) :
    identifier (objects, source) =
      ((Drawing.identifier source).1, objects, (Drawing.identifier source).2) := rfl

theorem newRoot_eq (msgType session username : Value) (objects : Objects)
    (source : EntropySource) :
    newRoot msgType session username (objects, source) =
      match Message.newRoot msgType session username source with
      | (.error fault, rest) => (.error fault, objects, rest)
      | (.ok message, rest) =>
          (.ok objects.messages.length, objects.create message.header message.parentHeader,
            rest) := by
  rw [newRoot, bind_apply, identifier_eq, Message.newRoot, Drawing.bind_apply]
  rcases Drawing.identifier source with ⟨_ | _, _⟩ <;> rfl

theorem newAnswer_eq (msgType : Value) (parent : Nat) (objects : Objects)
    (source : EntropySource) :
    newAnswer msgType parent (objects, source) =
      match Message.newAnswer msgType (objects.message parent) source with
      | (.error fault, rest) => (.error fault, objects, rest)
      | (.ok message, rest) =>
          (.ok objects.messages.length, objects.create message.header message.parentHeader,
            rest) := by
  rw [newAnswer, objects_bind, Message.newAnswer]
  cases (objects.message parent).header with
  | other _ => rfl
  | header header =>
      dsimp only
      rw [bind_apply, identifier_eq, Drawing.bind_apply]
      rcases Drawing.identifier source with ⟨_ | _, _⟩ <;> rfl

end Making

namespace Message

/-- An answer has neither metadata nor content when it is new. -/
theorem eq_blank_of_newAnswer {msgType : Value} {parent message : Message}
    {source rest : EntropySource} (h : newAnswer msgType parent source = (.ok message, rest)) :
    message = ⟨message.header, message.parentHeader, .dictionary [], .null⟩ := by
  rw [newAnswer_eq] at h
  split at h
  · cases h
  · cases h
  · cases h
    rfl

/-- What was given as metadata is made a dictionary, once there is a message to put it in. -/
theorem respond_of_ne_null {metadata : Value} (h : metadata ≠ .null) (msgType : Value)
    (parent : Message) (content : Value) :
    respond msgType parent content metadata = (newAnswer msgType parent >>= fun message =>
      match Entries.ofValue metadata with
      | .error fault => throw (.notPairs fault)
      | .ok entries => return { message with content, metadata := .dictionary entries }) := by
  cases metadata with
  | null => exact absurd rfl h
  | _ => rfl

end Message

namespace Making

theorem copy_eq (given : Held) (objects : Objects) (source : EntropySource) :
    copy given (objects, source) =
      match Entries.ofValue (objects.shown given) with
      | .error fault => (.error (.notPairs fault), objects, source)
      | .ok entries =>
          (.ok objects.dictionaries.length, objects.addDictionary entries, source) := by
  rw [copy, objects_bind]
  cases Entries.ofValue (objects.shown given) <;> rfl

theorem respond_of_ne_null {metadata : Held} (h : metadata ≠ .value .null) (msgType : Value)
    (parent : Nat) (content : Held) :
    respond msgType parent content metadata = (newAnswer msgType parent >>= fun place =>
      change (Objects.replace place (.content content)) >>= fun _ =>
      copy metadata >>= fun dictionary =>
      change (Objects.replace place (.metadata (.dictionary dictionary))) >>= fun _ =>
      return place) := by
  cases metadata with
  | dictionary _ => rfl
  | value v =>
      cases v with
      | null => exact absurd rfl h
      | _ => rfl

end Making

/-! ### What a making gives -/

namespace Building

/-- What is composed of the values that show. -/
def composition (objects : Objects) : Building → Drawing Message
  | .newRoot msgType session username => Message.newRoot msgType session username
  | .newAnswer msgType parent => Message.newAnswer msgType (objects.message parent)
  | .respond msgType parent content metadata =>
      Message.respond msgType (objects.message parent) (objects.shown content)
        (objects.shown metadata)

/-- What is to be held as content. -/
def content : Building → Held
  | .newRoot _ _ _ | .newAnswer _ _ => .value .null
  | .respond _ _ content _ => content

/-- How a making ends, beside what is composed. -/
inductive Makes (building : Building) (objects : Objects) :
    Except MessageFault Message × EntropySource →
      Except MessageFault Nat × Objects × EntropySource → Prop
  /-- It is refused with what is composed; a message may be left that nobody refers to. -/
  | refused {after : Objects} {added : Option MessageObject} (fault : MessageFault)
      (rest : EntropySource) (hgrows : Objects.Grows building.content objects after added) :
      Makes building objects (.error fault, rest) (.error fault, after, rest)
  /-- It gives the message that it adds, which shows what is composed. -/
  | made {after : Objects} {object : MessageObject} {message : Message} (rest : EntropySource)
      (hgrows : Objects.Grows building.content objects after (some object))
      (hshown : after.shownMessage object = message) :
      Makes building objects (.ok message, rest) (.ok objects.messages.length, after, rest)

theorem newRoot_makes (msgType session username : Value) (objects : Objects)
    (source : EntropySource) :
    (newRoot msgType session username).Makes objects
      ((newRoot msgType session username).composition objects source)
      ((newRoot msgType session username).run (objects, source)) := by
  rw [run, Making.newRoot_eq, composition, Message.newRoot, Drawing.bind_apply]
  rcases Drawing.identifier source with ⟨fault | msgId, rest⟩
  · exact .refused fault rest (.refl _ _)
  · exact .made rest (Objects.grows_create _ _) (Objects.shownMessage_create _ _)

theorem newAnswer_makes (msgType : Value) (parent : Nat) (objects : Objects)
    (source : EntropySource) :
    (newAnswer msgType parent).Makes objects
      ((newAnswer msgType parent).composition objects source)
      ((newAnswer msgType parent).run (objects, source)) := by
  rw [run, Making.newAnswer_eq, composition]
  rcases hanswer : Message.newAnswer msgType (objects.message parent) source
    with ⟨fault | message, rest⟩
  · exact .refused fault rest (.refl _ _)
  · rw [Message.eq_blank_of_newAnswer hanswer]
    exact .made rest (Objects.grows_create _ _) (Objects.shownMessage_create _ _)

variable {objects : Objects} {content metadata : Held}

/-- An answer holds the content that was given and a dictionary of its own. -/
theorem respond_makes (msgType : Value) (parent : Nat)
    (hcontent : content.Within objects.dictionaries.length)
    (hmetadata : metadata.Within objects.dictionaries.length) (source : EntropySource) :
    (respond msgType parent content metadata).Makes objects
      ((respond msgType parent content metadata).composition objects source)
      ((respond msgType parent content metadata).run (objects, source)) := by
  by_cases hnull : metadata = .value .null
  · subst hnull
    have hrespond : (respond msgType parent content (.value .null)).composition objects =
        (Message.newAnswer msgType (objects.message parent) >>= fun message =>
          return { message with content := objects.shown content }) := rfl
    have hrun : (respond msgType parent content (.value .null)).run =
        (Making.newAnswer msgType parent >>= fun place =>
          Making.change (Objects.replace place (.content content)) >>= fun _ =>
          return place) := rfl
    rw [hrespond, hrun, Drawing.bind_apply, Making.bind_apply, Making.newAnswer_eq]
    rcases hanswer : Message.newAnswer msgType (objects.message parent) source
      with ⟨fault | message, rest⟩
    · exact .refused fault rest (.refl _ _)
    · rw [Message.eq_blank_of_newAnswer hanswer]
      exact .made rest (Objects.grows_withContent _ _ hcontent)
        (Objects.shownMessage_withContent _ _ hcontent)
  · have hshown : objects.shown metadata ≠ .null := by
      cases metadata with
      | dictionary _ => rintro ⟨⟩
      | value v => exact fun h => hnull (congrArg Held.value h)
    rw [composition, Message.respond_of_ne_null hshown, run, Making.respond_of_ne_null hnull,
      Drawing.bind_apply, Making.bind_apply, Making.newAnswer_eq]
    rcases hanswer : Message.newAnswer msgType (objects.message parent) source
      with ⟨fault | message, rest⟩
    · exact .refused fault rest (.refl _ _)
    · have hgrows := Objects.grows_withContent message.header message.parentHeader hcontent
      dsimp only
      rw [Making.change_bind, Making.bind_apply, ← Objects.withContent, Making.copy_eq,
        hgrows.extends.shown hmetadata]
      cases Entries.ofValue (objects.shown metadata) with
      | error fault => exact .refused (.notPairs fault) rest hgrows
      | ok entries =>
          exact .made rest (Objects.grows_withMetadata _ _ entries hcontent)
            (Objects.shownMessage_withMetadata _ _ entries hcontent)

/-- A making adds its message, and what the message shows is what is composed; one that is
refused is refused as the composition is. -/
theorem makes (building : Building) (hknown : building.Known objects) (source : EntropySource) :
    building.Makes objects (building.composition objects source)
      (building.run (objects, source)) := by
  cases building with
  | newRoot msgType session username => exact newRoot_makes msgType session username objects source
  | newAnswer msgType parent => exact newAnswer_makes msgType parent objects source
  | respond msgType parent _ _ => exact respond_makes msgType parent hknown.2.1 hknown.2.2 source

end Building
end SignedMessaging
