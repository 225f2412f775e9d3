import SignedMessaging.Message.Compose
import SignedMessaging.Proofs.Message.Normal

/-!
# Composition

A composition takes at most one draw, and takes none before it is known that there is a
header to answer (`Drawing.Takes`).  An answer is what its parent's header, the draw and what
was given for it say, and nothing else of the parent is in it (`respond_eq_ok_iff`).
-/

namespace SignedMessaging

namespace Drawing

variable {α β : Type}

theorem bind_apply (composition : Drawing α) (next : α → Drawing β) (source : EntropySource) :
    (composition >>= next) source =
      match composition source with
      | (.ok a, rest) => next a rest
      | (.error fault, rest) => (.error fault, rest) := by
  simp only [bind, ExceptT.bind, ExceptT.mk, StateT.bind]
  rcases composition source with ⟨_ | _, _⟩ <;> rfl

/-- An identifier is that of the next draw. -/
theorem identifier_eq (source : EntropySource) :
    identifier source =
      match source.draws with
      | [] => (.error (.identifier source.failure), source)
      | draw :: rest => (.ok draw.identifier, { source with draws := rest }) := by
  obtain ⟨draws, failure⟩ := source
  cases draws <;> rfl

/-- How a composition goes that gives something with an identifier: it is refused before it
draws, no draw is left, the draw is taken in vain, or it is the one of the identifier. -/
inductive Takes (ready : Prop) (identifier? : α → Option Value) (source : EntropySource) :
    Except MessageFault α × EntropySource → Prop
  | unready (fault : MessageFault) (hready : ¬ ready) :
      Takes ready identifier? source (.error fault, source)
  | starved (hready : ready) (hdraws : source.draws = []) :
      Takes ready identifier? source (.error (.identifier source.failure), source)
  | spent (fault : MessageFault) {draw : Draw} {rest : List Draw} (hready : ready)
      (hdraws : source.draws = draw :: rest) :
      Takes ready identifier? source (.error fault, { source with draws := rest })
  | issued {a : α} {draw : Draw} {rest : List Draw} (hready : ready)
      (hdraws : source.draws = draw :: rest) (ha : identifier? a = some (.text draw.identifier)) :
      Takes ready identifier? source (.ok a, { source with draws := rest })

variable {ready : Prop} {firstIdentifier? : α → Option Value} {identifier? : β → Option Value}
  {source : EntropySource}

/-- What is done to the result without another draw keeps to this, where the identifier
stays. -/
theorem Takes.bind {composition : Drawing α} {next : α → Drawing β}
    {result : α → Except MessageFault β}
    (h : Takes ready firstIdentifier? source (composition source))
    (hnext : ∀ a rest, next a rest = (result a, rest))
    (hresult : ∀ {a b}, result a = .ok b → identifier? b = firstIdentifier? a) :
    Takes ready identifier? source ((composition >>= next) source) := by
  rw [bind_apply]
  generalize composition source = first at h
  cases h with
  | unready fault hready => exact .unready fault hready
  | starved hready hdraws => exact .starved hready hdraws
  | spent fault hready hdraws => exact .spent fault hready hdraws
  | @issued a _ _ hready hdraws ha =>
      dsimp only
      rw [hnext]
      cases hb : result a with
      | error fault => exact .spent fault hready hdraws
      | ok b => exact .issued hready hdraws ((hresult hb).trans ha)

theorem identifier_takes (source : EntropySource) :
    Takes True (fun text => some (.text text)) source (identifier source) := by
  rw [identifier_eq]
  cases hdraws : source.draws with
  | nil => exact .starved trivial hdraws
  | cons draw rest => exact .issued trivial hdraws rfl

end Drawing

namespace Message

variable {msgType content metadata : Value} {parent answered : Message}
  {source rest : EntropySource}

/-- The answer to a header, with the identifier of a draw and what was given for it. -/
def composed (msgType : Value) (parent : Header) (draw : Draw) (content metadata : Value) :
    Message :=
  ⟨.header ⟨.text draw.identifier, parent.username, parent.session, msgType⟩, .header parent,
    sentMetadata metadata, content⟩

/-- The identifier of a message, where it has a header. -/
def identifier? (message : Message) : Option Value :=
  message.header.header?.map Header.msgId

theorem newRoot_takes (msgType session username : Value) (source : EntropySource) :
    Drawing.Takes True identifier? source (newRoot msgType session username source) :=
  (Drawing.identifier_takes source).bind (fun _ _ => rfl) (by rintro _ _ ⟨⟩; rfl)

theorem newAnswer_eq (msgType : Value) (parent : Message) (source : EntropySource) :
    newAnswer msgType parent source =
      match parent.header, source.draws with
      | .other _, _ => (.error .parentNotHeader, source)
      | .header _, [] => (.error (.identifier source.failure), source)
      | .header header, draw :: rest =>
          (.ok (answer msgType header draw.identifier), { source with draws := rest }) := by
  unfold newAnswer
  cases parent.header with
  | other _ => rfl
  | header header =>
      dsimp only
      rw [Drawing.bind_apply, Drawing.identifier_eq]
      cases source.draws <;> rfl

/-- An answer takes a draw where its parent has a header. -/
theorem newAnswer_takes (msgType : Value) (parent : Message) (source : EntropySource) :
    Drawing.Takes (∃ header, parent.header = .header header) identifier? source
      (newAnswer msgType parent source) := by
  rw [newAnswer_eq]
  cases parent.header with
  | other v => exact .unready _ (by rintro ⟨_, ⟨⟩⟩)
  | header header =>
      cases hdraws : source.draws with
      | nil => exact .starved ⟨header, rfl⟩ hdraws
      | cons draw rest => exact .issued ⟨header, rfl⟩ hdraws rfl

/-- An answer with its content and metadata, where these make a dictionary. -/
def filled (content metadata : Value) (message : Message) : Except MessageFault Message :=
  match metadata with
  | .null => .ok { message with content }
  | given =>
      match Entries.ofValue given with
      | .error fault => .error (.notPairs fault)
      | .ok entries => .ok { message with content, metadata := .dictionary entries }

theorem identifier_filled (h : filled content metadata parent = .ok answered) :
    answered.identifier? = parent.identifier? := by
  unfold filled at h
  split at h
  · cases h
    rfl
  · split at h
    · cases h
    · cases h
      rfl

/-- Metadata that make no dictionary are found out when the draw is already taken. -/
theorem respond_takes (msgType : Value) (parent : Message) (content metadata : Value)
    (source : EntropySource) :
    Drawing.Takes (∃ header, parent.header = .header header) identifier? source
      (respond msgType parent content metadata source) := by
  have hnext : ∀ message rest, (match metadata with
      | .null => return { message with content }
      | given =>
          match Entries.ofValue given with
          | .error fault => throw (.notPairs fault)
          | .ok entries => return { message with content, metadata := .dictionary entries } :
        Drawing Message) rest = (filled content metadata message, rest) := by
    intro message rest
    unfold filled
    split
    · rfl
    · cases Entries.ofValue metadata <;> rfl
  exact (newAnswer_takes msgType parent source).bind hnext identifier_filled

/-- What was given for an answer is filled in where metadata are a dictionary, or none. -/
theorem respond_eq (hmetadata : metadata.kind = .null ∨ metadata.kind = .dictionary)
    (msgType content : Value) (parent : Message) (source : EntropySource) :
    respond msgType parent content metadata source =
      match parent.header, source.draws with
      | .other _, _ => (.error .parentNotHeader, source)
      | .header _, [] => (.error (.identifier source.failure), source)
      | .header header, draw :: rest =>
          (.ok (composed msgType header draw content metadata), { source with draws := rest }) := by
  unfold respond
  rw [Drawing.bind_apply, newAnswer_eq]
  cases parent.header with
  | other _ => rfl
  | header header =>
      cases source.draws with
      | nil => rfl
      | cons draw rest =>
          -- Metadata that were not given stay those of a new message.
          cases metadata with
          | null | dictionary _ => rfl
          | _ => simp [Value.kind] at hmetadata

/-- An answer is composed where the parent has a header and a draw is left, which it takes. -/
theorem respond_eq_ok_iff (hmetadata : metadata.kind = .null ∨ metadata.kind = .dictionary) :
    respond msgType parent content metadata source = (.ok answered, rest) ↔
      ∃ header draw, parent.header = .header header ∧ source.draws = draw :: rest.draws ∧
        rest.failure = source.failure ∧
        answered = composed msgType header draw content metadata := by
  rw [respond_eq hmetadata]
  cases parent.header with
  | other _ => exact iff_of_false (by rintro ⟨⟩) (by rintro ⟨_, _, ⟨⟩, _⟩)
  | header header =>
      obtain ⟨draws, failure⟩ := source
      obtain ⟨left, leftFailure⟩ := rest
      cases draws with
      | nil => exact iff_of_false (by rintro ⟨⟩) (by rintro ⟨_, _, _, ⟨⟩, _⟩)
      | cons draw draws =>
          constructor
          · rintro ⟨⟩
            exact ⟨header, draw, rfl, rfl, rfl, rfl⟩
          · rintro ⟨_, _, ⟨⟩, ⟨⟩, ⟨⟩, rfl⟩
            rfl

theorem normal_composed (msgType : Value) (parent : Header) (draw : Draw)
    (content metadata : Value) :
    (composed msgType parent draw content metadata).normal =
      ⟨.header ⟨.text draw.identifier, parent.username, parent.session, msgType⟩,
        .header parent, (sentMetadata metadata).normal, content.normal⟩ := by
  cases metadata <;> rfl

end Message
end SignedMessaging
