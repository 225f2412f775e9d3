import SignedMessaging.Proofs.Connection.Information

/-!
# Endpoints

The address of an endpoint may hold any characters, so an endpoint is taken apart from its
right end: it ends with the digits of the port, and before them stands a mark that is no digit
(`append_mark_inj`).  The mark is the separator of the transport, or else the minus sign of a
negative port.  Over `tcp` these are different characters, so endpoints determine address and
port.  Over `ipc` the separator is a dash as well, and a negative port is taken for a positive
one behind an address with a dash at its end; nothing else collides (`endpoints_told_apart`).
-/

namespace SignedMessaging.Connection

/-! ### Texts from the right -/

/-- A mark and what comes after it are determined by the whole text, where only the mark is
not of a kind that all after it is. -/
theorem append_mark_inj {α : Type} {p : α → Bool} {before before' after after' : List α}
    {mark mark' : α} (hmark : p mark = false) (hmark' : p mark' = false)
    (hafter : ∀ a ∈ after, p a) (hafter' : ∀ a ∈ after', p a)
    (h : before ++ mark :: after = before' ++ mark' :: after') :
    before = before' ∧ mark = mark' ∧ after = after' := by
  have hsplit : ∀ (before : List α) {after : List α} {mark : α}, p mark = false →
      (∀ a ∈ after, p a) → (before ++ mark :: after).reverse.takeWhile p = after.reverse ∧
        (before ++ mark :: after).reverse.dropWhile p = mark :: before.reverse := by
    intro before after mark hmark hafter
    have hreverse :
        (before ++ mark :: after).reverse = after.reverse ++ mark :: before.reverse := by
      simp
    have hall : ∀ a ∈ after.reverse, p a := by simpa using hafter
    rw [hreverse, List.takeWhile_append_of_pos hall, List.dropWhile_append_of_pos hall]
    simp [hmark]
  obtain ⟨htake, hdrop⟩ := hsplit before hmark hafter
  obtain ⟨htake', hdrop'⟩ := hsplit before' hmark' hafter'
  rw [h, htake'] at htake
  rw [h, hdrop', List.cons.injEq] at hdrop
  exact ⟨(List.reverse_injective hdrop.2).symm, hdrop.1.symm,
    (List.reverse_injective htake).symm⟩

theorem toDigits_injective {m n : Nat} (h : Nat.toDigits 10 m = Nat.toDigits 10 n) : m = n :=
  calc m = Nat.ofDigitChars 10 (Nat.toDigits 10 m) 0 := Nat.ofDigitChars_ten_toDigits.symm
    _ = Nat.ofDigitChars 10 (Nat.toDigits 10 n) 0 := by rw [h]
    _ = n := Nat.ofDigitChars_ten_toDigits

/-- What stands before the mark of a port: the address, and the separator where the mark is the
sign of a negative port. -/
def beforeMark (separator : Char) (ip : List Char) (n : Int) : List Char :=
  if n < 0 then ip ++ [separator] else ip

/-- The mark of a port: its sign where it is negative, and else the separator. -/
def portMark (separator : Char) (n : Int) : Char :=
  if n < 0 then '-' else separator

theorem append_text (separator : Char) (ip : List Char) (n : Int) :
    ip ++ separator :: Whole.text n =
      beforeMark separator ip n ++ portMark separator n :: Nat.toDigits 10 n.natAbs := by
  unfold Whole.text beforeMark portMark
  split <;> simp

/-- An address and a port behind a separator determine the mark and what is around it. -/
theorem append_text_inj {separator : Char} (hseparator : separator.isDigit = false)
    {ip ip' : List Char} {m n : Int}
    (h : ip ++ separator :: Whole.text m = ip' ++ separator :: Whole.text n) :
    beforeMark separator ip m = beforeMark separator ip' n ∧
      portMark separator m = portMark separator n ∧ m.natAbs = n.natAbs := by
  have hmark : ∀ n, (portMark separator n).isDigit = false := by
    intro n
    unfold portMark
    split
    · decide
    · exact hseparator
  have hdigits : ∀ n : Nat, ∀ c ∈ Nat.toDigits 10 n, c.isDigit = true := fun n c hc =>
    Nat.isDigit_of_mem_toDigits (by decide) (by decide) hc
  rw [append_text, append_text] at h
  obtain ⟨hbefore, hportMark, hafter⟩ :=
    append_mark_inj (hmark m) (hmark n) (hdigits _) (hdigits _) h
  exact ⟨hbefore, hportMark, toDigits_injective hafter⟩

/-- With a colon before it, a port is told from the address. -/
theorem append_colon_iff {ip ip' : String} {m n : Int} :
    ip.toList ++ ':' :: Whole.text m = ip'.toList ++ ':' :: Whole.text n ↔
      ip = ip' ∧ m = n := by
  constructor
  · intro h
    obtain ⟨hbefore, hmark, habs⟩ := append_text_inj (by decide) h
    unfold beforeMark at hbefore
    unfold portMark at hmark
    -- The sign is no colon, so both ports have one or none has.
    by_cases hm : m < 0 <;> by_cases hn : n < 0 <;> simp [hm, hn] at hbefore hmark
    · exact ⟨String.toList_inj.1 hbefore, by omega⟩
    · exact ⟨String.toList_inj.1 hbefore, by omega⟩
  · rintro ⟨rfl, rfl⟩
    rfl

/-- Whether a negative port is spelled like its positive behind a dash that ends the other
address. -/
def DashTaken (ip ip' : String) (m n : Int) : Prop :=
  ∃ k : Nat, 0 < k ∧ m = -(k : Int) ∧ n = k ∧ ip' = ip ++ "-"

theorem not_dashTaken_self {ip : String} {m n : Int} : ¬ DashTaken ip ip m n := by
  rintro ⟨k, -, -, -, hip⟩
  have hlength := congrArg String.length hip
  simp at hlength

theorem append_of_dashTaken {ip ip' : String} {m n : Int} (h : DashTaken ip ip' m n) :
    ip.toList ++ '-' :: Whole.text m = ip'.toList ++ '-' :: Whole.text n := by
  obtain ⟨k, hk, rfl, rfl, rfl⟩ := h
  have hnegative : Whole.text (-(k : Int)) = '-' :: Nat.toDigits 10 k := by
    simp [Whole.text, hk]
  have hpositive : Whole.text (k : Int) = Nat.toDigits 10 k := by
    simp [Whole.text]
  rw [hnegative, hpositive]
  simp

/-- With a dash before it, a port is told from the address but for its sign. -/
theorem append_dash_iff {ip ip' : String} {m n : Int} :
    ip.toList ++ '-' :: Whole.text m = ip'.toList ++ '-' :: Whole.text n ↔
      (ip = ip' ∧ m = n) ∨ DashTaken ip ip' m n ∨ DashTaken ip' ip n m := by
  constructor
  · intro h
    obtain ⟨hbefore, -, habs⟩ := append_text_inj (by decide) h
    have hdash : ∀ {ip ip' : String}, ip.toList ++ ['-'] = ip'.toList → ip' = ip ++ "-" := by
      intro ip ip' h
      rw [← String.toList_inj, ← h]
      simp
    unfold beforeMark at hbefore
    by_cases hm : m < 0 <;> by_cases hn : n < 0 <;> simp only [hm, hn, if_true, if_false] at hbefore
    · refine .inl ⟨String.toList_inj.1 (List.append_cancel_right hbefore), ?_⟩
      omega
    · exact .inr (.inl ⟨n.natAbs, by omega, by omega, by omega, hdash hbefore⟩)
    · exact .inr (.inr ⟨m.natAbs, by omega, by omega, by omega, hdash hbefore.symm⟩)
    · refine .inl ⟨String.toList_inj.1 hbefore, ?_⟩
      omega
  · rintro (⟨rfl, rfl⟩ | h | h)
    · rfl
    · exact append_of_dashTaken h
    · exact (append_of_dashTaken h).symm

/-! ### Endpoints of connections -/

variable {first second : Connection} {c d : Channel} {m n : Int}

/-- How the endpoints of two channels are told apart, if their ports can be shown. -/
structure ToldApart (first second : Connection) (c d : Channel) (m n : Int) : Prop where
  /-- Both channels have an endpoint. -/
  shown : (∃ endpoint, first.address c = .ok endpoint) ∧
    ∃ endpoint, second.address d = .ok endpoint
  /-- It is the same exactly if transport, address and port are, or over `ipc` a dash that ends
  one address is taken for the sign of the other port. -/
  same_iff : first.address c = second.address d ↔ first.transport = second.transport ∧
    ((first.ip = second.ip ∧ m = n) ∨ first.transport = "ipc" ∧
      (DashTaken first.ip second.ip m n ∨ DashTaken second.ip first.ip n m))
  /-- Over `tcp` an endpoint determines address and port. -/
  tcp : first.transport = "tcp" → second.transport = "tcp" →
    (first.address c = second.address d ↔ first.ip = second.ip ∧ m = n)
  /-- In one connection only channels of one port share an endpoint. -/
  within : first = second → (first.address c = second.address d ↔ m = n)

theorem address_of_port {connection : Connection} (hport : connection.port c = .int n)
    (hshown : Whole.tooLong n = false) : connection.address c = .ok
      (endpoint connection.transport connection.ip (String.ofList (Whole.text n))) := by
  rw [address, hport, Port.written_of_natAbs_lt (Whole.tooLong_eq_false_iff.1 hshown)]
  rfl

/-- Endpoints over different transports differ, and those over one differ where what follows
the name of the transport does. -/
theorem endpoint_eq_iff {transport transport' ip ip' : String} (hknown : transport ∈ transports)
    (hknown' : transport' ∈ transports) {port port' : List Char} :
    endpoint transport ip (String.ofList port) = endpoint transport' ip' (String.ofList port') ↔
      transport = transport' ∧
        ((transport = "tcp" ∧ ip.toList ++ ':' :: port = ip'.toList ++ ':' :: port') ∨
          transport = "ipc" ∧ ip.toList ++ '-' :: port = ip'.toList ++ '-' :: port') := by
  simp only [transports, List.mem_cons, List.not_mem_nil, or_false] at hknown hknown'
  rw [← String.toList_inj]
  rcases hknown with rfl | rfl <;> rcases hknown' with rfl | rfl <;> simp [endpoint]

theorem address_eq_iff (hfirst : first.transport ∈ transports)
    (hsecond : second.transport ∈ transports) (hm : first.port c = .int m)
    (hn : second.port d = .int n) (hshown : Whole.tooLong m = false)
    (hshown' : Whole.tooLong n = false) :
    first.address c = second.address d ↔ first.transport = second.transport ∧
      ((first.ip = second.ip ∧ m = n) ∨ first.transport = "ipc" ∧
        (DashTaken first.ip second.ip m n ∨ DashTaken second.ip first.ip n m)) := by
  rw [address_of_port hm hshown, address_of_port hn hshown', Except.ok.injEq,
    endpoint_eq_iff hfirst hsecond, append_colon_iff, append_dash_iff]
  simp only [transports, List.mem_cons, List.not_mem_nil, or_false] at hfirst
  rcases hfirst with htransport | htransport <;> simp [htransport]

/-- A connection that information describes says what some entries say. -/
theorem exists_says {information : Value} {connection : Connection}
    (h : ofValue information = .ok connection) : ∃ entries, Says entries connection := by
  cases information with
  | dictionary entries => exact ⟨entries, ofEntries_eq_ok_iff.1 h⟩
  | _ => cases h

/-- The endpoints of connections collide only where a dash is taken for a sign. -/
theorem endpoints_told_apart {information information' : Value}
    (hfirst : ofValue information = .ok first) (hsecond : ofValue information' = .ok second)
    (c d : Channel) : ∃ m n : Int, first.port c = .int m ∧ second.port d = .int n ∧
      (Whole.tooLong m = false → Whole.tooLong n = false →
        ToldApart first second c d m n) := by
  obtain ⟨_, hfirst⟩ := exists_says hfirst
  obtain ⟨_, hsecond⟩ := exists_says hsecond
  obtain ⟨m, -, hm⟩ := hfirst.port c
  obtain ⟨n, -, hn⟩ := hsecond.port d
  refine ⟨m, n, hm, hn, fun hshown hshown' => ?_⟩
  have hsame := address_eq_iff hfirst.known hsecond.known hm hn hshown hshown'
  constructor
  · exact ⟨⟨_, address_of_port hm hshown⟩, _, address_of_port hn hshown'⟩
  · exact hsame
  · intro htcp htcp'
    rw [hsame, htcp, htcp']
    simp
  · intro heq
    subst heq
    rw [hsame]
    simp [not_dashTaken_self]

/-- A connection over `ipc` with a port for one channel. -/
def overIpc (ip : String) (port : Int) : Connection where
  transport := "ipc"
  ip := ip
  port
    | .shell => .int port
    | _ => .int 0

/-- The information that describes it. -/
def overIpcInformation (ip : String) (port : Int) : Value :=
  .dictionary [(.text "transport", .text "ipc"), (.text "ip", .text ip),
    (.text "shell_port", .int port)]

theorem ofValue_overIpcInformation (ip : String) (port : Int) :
    ofValue (overIpcInformation ip port) = .ok (overIpc ip port) := by
  refine ofEntries_eq_ok_iff.2 ?_
  constructor
  · exact ⟨_, rfl, rfl⟩
  · rfl
  · rfl
  · rfl
  · intro channel
    cases channel <;> exact ⟨_, rfl, rfl⟩
  · show "ipc" ∈ transports
    decide
  · show ∃ digest, Scheme.digest Scheme.standard = .ok digest
    exact ⟨_, rfl⟩

/-- The port -5 of one address is the port 5 of the address with a dash; in one connection it
is not the port 0. -/
theorem endpoints_told_apart_dash :
    (ofValue (overIpcInformation "k" (-5)) = .ok (overIpc "k" (-5)) ∧
        ofValue (overIpcInformation "k-" 5) = .ok (overIpc "k-" 5)) ∧
      (overIpc "k" (-5)).address .shell = (overIpc "k-" 5).address .shell ∧
      (overIpc "k" (-5)).address .shell ≠ (overIpc "k" (-5)).address .iopub := by
  have hfirst := ofValue_overIpcInformation "k" (-5)
  have hsecond := ofValue_overIpcInformation "k-" 5
  refine ⟨⟨hfirst, hsecond⟩, ?_, ?_⟩
  · obtain ⟨m, n, ⟨⟩, ⟨⟩, htold⟩ := endpoints_told_apart hfirst hsecond .shell .shell
    refine (htold (by decide) (by decide)).same_iff.2 ⟨rfl, .inr ⟨rfl, .inl ?_⟩⟩
    exact ⟨5, by decide, rfl, rfl, rfl⟩
  · obtain ⟨m, n, ⟨⟩, ⟨⟩, htold⟩ := endpoints_told_apart hfirst hfirst .shell .iopub
    rw [ne_eq, (htold (by decide) (by decide)).within rfl]
    decide

end SignedMessaging.Connection
