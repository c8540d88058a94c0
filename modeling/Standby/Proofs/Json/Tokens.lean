import Standby.Proofs.Json.RoundTrip

/-!
# Reading JSON with blanks between its tokens

A JSON text is a sequence of tokens with blanks anywhere around them (`Spaced`). A reader is
described by the tokens that it makes a value of (`Reads`) and by those at which it gives up,
whatever follows (`Refuses`). An object is read member by member, each of which is admitted by the
state that the ones before it lead to (`Admits`): after admitted members the object may end
(`Admits.readObject_end`), and a member that is refused then refuses the whole object
(`Admits.readObject_refuses`).
-/

set_option autoImplicit false

namespace Standby.Json

/-! ## Tokens and blanks -/

/-- Byte strings that are tokens with blanks anywhere around them. -/
inductive Spaced : List Bytes → Bytes → Prop where
  | nil {blanks : Bytes} (areBlank : ∀ byte ∈ blanks, isSpace byte) : Spaced [] blanks
  | cons {blanks token : Bytes} {tokens : List Bytes} {rest : Bytes}
      (areBlank : ∀ byte ∈ blanks, isSpace byte) (further : Spaced tokens rest) :
      Spaced (token :: tokens) (blanks ++ (token ++ rest))

/-- There may be no blanks at all. -/
theorem spaced_flatten (tokens : List Bytes) : Spaced tokens tokens.flatten := by
  induction tokens with
  | nil => exact .nil nofun
  | cons token tokens ih => exact @Spaced.cons [] _ _ _ nofun ih

namespace Spaced

variable {tokens : List Bytes} {bytes : Bytes}

theorem skipSpace_eq_nil (spaced : Spaced [] bytes) : skipSpace bytes = [] := by
  cases spaced with
  | nil areBlank => exact skipSpace_eq_nil_iff.2 areBlank

theorem length_le (spaced : Spaced tokens bytes) : tokens.flatten.length ≤ bytes.length := by
  induction spaced with
  | nil => exact Nat.zero_le _
  | cons _ _ ih =>
    simp only [List.flatten_cons, List.length_append]
    omega

theorem readMark {mark : UInt8} (spaced : Spaced ([mark] :: tokens) bytes)
    (noSpace : isSpace mark = false) : ∃ rest, readMark mark bytes = .ok rest ∧
      Spaced tokens rest := by
  cases spaced with
  | @cons _ _ _ rest areBlank further =>
    exact ⟨rest, by rw [readMark_blanks areBlank]; exact readMark_cons noSpace rest, further⟩

theorem dropMark? {mark : UInt8} (spaced : Spaced ([mark] :: tokens) bytes)
    (noSpace : isSpace mark = false) : ∃ rest, dropMark? mark bytes = some rest ∧
      Spaced tokens rest := by
  cases spaced with
  | @cons _ _ _ rest areBlank further =>
    exact ⟨rest, by rw [dropMark?_blanks areBlank]; exact dropMark?_cons noSpace rest, further⟩

theorem dropMark?_eq_none {mark : UInt8} {token : Bytes} (spaced : Spaced (token :: tokens) bytes)
    (avoids : Avoids mark token) : Json.dropMark? mark bytes = none := by
  cases spaced with
  | @cons _ _ _ rest areBlank further =>
    rw [dropMark?_blanks areBlank, dropMark?_of_avoids avoids]

end Spaced

theorem avoids_singleton {mark byte : UInt8} (noSpace : isSpace byte = false)
    (other : byte ≠ mark) : Avoids mark [byte] := ⟨byte, [], rfl, noSpace, other⟩

/-! ## What a reader makes of tokens -/

/-- Whether the tokens behind a value do not go on with it. -/
def Stops (others : List Bytes) : Prop :=
  ∀ token ∈ others.head?, ∃ mark ∈ [comma, closeList, closeObject], token = [mark]

theorem stops_cons {mark : UInt8} (isMark : mark ∈ [comma, closeList, closeObject])
    (others : List Bytes) : Stops ([mark] :: others) := by
  rintro _ ⟨⟩
  exact ⟨mark, isMark, rfl⟩

/-- A number may end where its value does. -/
theorem Stops.halts {others : List Bytes} {rest : Bytes} (stops : Stops others)
    (spaced : Spaced others rest) : Halts rest := by
  have blank {byte : UInt8} (space : isSpace byte) :
      Decimal.ofByte? byte = none ∧ byte ≠ 0x2e ∧ byte ≠ 0x65 ∧ byte ≠ 0x45 := by
    simp only [isSpace, Bool.or_eq_true, beq_iff_eq] at space
    rcases space with ((rfl | rfl) | rfl) | rfl <;> decide
  intro byte first
  cases spaced with
  | nil areBlank => exact blank (areBlank byte (List.mem_of_mem_head? first))
  | @cons blanks token tokens rest areBlank further =>
    cases blanks with
    | cons space blanks =>
      cases first
      exact blank (areBlank byte List.mem_cons_self)
    | nil =>
      obtain ⟨mark, isMark, rfl⟩ := stops _ rfl
      cases first
      revert isMark
      simp only [List.mem_cons, List.not_mem_nil, or_false]
      rintro (rfl | rfl | rfl) <;> decide

/-- Whether a reader makes this value of these tokens, however they are spaced and whatever follows
them. -/
def Reads {α : Type} (reader : Reader α) (tokens : List Bytes) (value : α) : Prop :=
  ∀ others bytes, Stops others → Spaced (tokens ++ others) bytes →
    ∃ rest, reader bytes = .ok (value, rest) ∧ Spaced others rest

/-- Whether a reader gives up on whatever begins with these tokens, however they are spaced. -/
def Refuses {α : Type} (reader : Reader α) (tokens : List Bytes) (fault : Fault) : Prop :=
  ∀ others bytes, Spaced (tokens ++ others) bytes → reader bytes = .error fault

variable {α β σ : Type} {tokens : List Bytes} {fault : Fault}

/-- What is taken from a token is read from it. -/
theorem Takes.reads {reader : Reader α} {token : Bytes} {value : α}
    (takes : Takes reader Halts token value) (skips : Skips reader) :
    Reads reader [token] value := by
  rintro others bytes stops (_ | ⟨areBlank, further⟩)
  exact ⟨_, (skips _ _ areBlank).trans (takes _ (stops.halts further)), further⟩

theorem Takes.reads_anywhere {reader : Reader α} {token : Bytes} {value : α}
    (takes : Takes reader Anything token value) (skips : Skips reader) :
    Reads reader [token] value :=
  Takes.reads (fun rest _ => takes rest trivial) skips

/-- What is made of a value is read where the value is. -/
theorem Reads.make {reader : Reader α} {value : α} (reads : Reads reader tokens value)
    (make : α → β) : Reads (fun bytes => (reader bytes).bind fun found =>
      .ok (make found.1, found.2)) tokens (make value) := by
  intro others bytes stops spaced
  obtain ⟨rest, read, left⟩ := reads others bytes stops spaced
  exact ⟨rest, by simp only [read, Except.bind], left⟩

theorem Refuses.bind {reader : Reader α} (refuses : Refuses reader tokens fault)
    (next : α × Bytes → Except Fault (β × Bytes)) :
    Refuses (fun bytes => (reader bytes).bind next) tokens fault := by
  intro others bytes spaced
  simp only [refuses others bytes spaced, Except.bind]

theorem Reads.map {codec : Codec β} {raw : β} (reads : Reads codec.read tokens raw)
    (toRaw : α → β) (ofRaw : β → α) :
    Reads (codec.map toRaw ofRaw).read tokens (ofRaw raw) := reads.make ofRaw

theorem Refuses.map {codec : Codec β} (refuses : Refuses codec.read tokens fault)
    (toRaw : α → β) (ofRaw : β → α) : Refuses (codec.map toRaw ofRaw).read tokens fault :=
  refuses.bind _

/-- A whole text is read as its tokens are. -/
theorem Reads.parse {codec : Codec α} {value : α} (reads : Reads codec.read tokens value)
    {bytes : Bytes} (spaced : Spaced tokens bytes) : codec.parse bytes = .ok value := by
  obtain ⟨rest, read, left⟩ := reads [] bytes nofun ((List.append_nil tokens).symm ▸ spaced)
  rw [Codec.parse, read]
  exact if_pos left.skipSpace_eq_nil

theorem Refuses.parse {codec : Codec α} (refuses : Refuses codec.read tokens fault)
    {others : List Bytes} {bytes : Bytes} (spaced : Spaced (tokens ++ others) bytes) :
    codec.parse bytes = .error fault := by
  rw [Codec.parse, refuses others bytes spaced]
  rfl

/-! ## Members -/

/-- The tokens of a member of an object. -/
def memberTokens (binding : String × List Bytes) : List Bytes :=
  quoteText binding.1 :: [colon] :: binding.2

/-- The tokens of an object up to where another member may stand. -/
def openingTokens (bindings : List (String × List Bytes)) : List Bytes :=
  [openObject] :: bindings.flatMap fun binding => memberTokens binding ++ [[comma]]

/-- The tokens of an object. -/
def objectTokens (bindings : List (String × List Bytes)) : List Bytes :=
  [openObject] :: ([[comma]].intercalate (bindings.map memberTokens) ++ [[closeObject]])

theorem objectTokens_concat (bindings : List (String × List Bytes))
    (last : String × List Bytes) : objectTokens (bindings ++ [last]) =
      openingTokens bindings ++ memberTokens last ++ [[closeObject]] := by
  have members : [[comma]].intercalate ((bindings ++ [last]).map memberTokens) =
      bindings.flatMap (fun binding => memberTokens binding ++ [[comma]]) ++ memberTokens last := by
    induction bindings with
    | nil => exact List.append_nil _
    | cons binding bindings ih =>
      obtain ⟨next, others, isCons⟩ := List.exists_cons_of_ne_nil
        (List.append_ne_nil_of_right_ne_nil bindings (List.cons_ne_nil last []))
      rw [isCons] at ih
      rw [List.cons_append, isCons, List.map_cons, List.map_cons, List.intercalate_cons_cons,
        ← List.map_cons, ih, List.flatMap_cons, List.append_assoc _ _ (memberTokens last)]
  rw [objectTokens, members, openingTokens]
  rfl

/-- The tokens of an object make up its text. -/
theorem flatten_objectTokens (bindings : List (String × List Bytes)) :
    (objectTokens bindings).flatten = enclose openObject closeObject
      (bindings.map fun binding => memberBytes binding.1 binding.2.flatten) := by
  have members : ([[comma]].intercalate (bindings.map memberTokens)).flatten =
      ((bindings.map fun binding => memberBytes binding.1 binding.2.flatten).intersperse
        [comma]).flatten := by
    induction bindings with
    | nil => rfl
    | cons binding bindings ih =>
      cases bindings with
      | nil => simp [List.intercalate, memberTokens, memberBytes]
      | cons next bindings =>
        simp only [List.map_cons, List.intercalate_cons_cons, List.flatten_append,
          List.intersperse_cons_cons, List.flatten_cons] at ih ⊢
        rw [ih]
        simp [memberTokens, memberBytes]
  rw [objectTokens, enclose, List.flatten_cons, List.flatten_append, members]
  rfl

theorem Spaced.readText {text : String} {bytes : Bytes}
    (spaced : Spaced (quoteText text :: tokens) bytes) :
    ∃ rest, readText bytes = .ok (text, rest) ∧ Spaced tokens rest := by
  cases spaced with
  | @cons _ _ _ rest areBlank further =>
    exact ⟨rest, by rw [skips_text _ _ areBlank, readText_quoteText], further⟩

/-- Reads one member of an object. -/
def takeMember (member : MemberReader σ) (state : σ) : Reader σ := fun bytes => do
  let (name, rest) ← readText bytes
  let contents ← member state name
  contents (← readMark colon rest)

section Member

variable {member : MemberReader σ} {state : σ} {name : String} {reader : Reader σ}

theorem reads_member {next : σ} (welcome : member state name = .ok reader)
    (reads : Reads reader tokens next) :
    Reads (takeMember member state) (memberTokens (name, tokens)) next := by
  intro others bytes stops spaced
  obtain ⟨afterName, readName, spaced⟩ := Spaced.readText spaced
  obtain ⟨afterColon, readColon, spaced⟩ := spaced.readMark (by decide)
  obtain ⟨rest, read, left⟩ := reads others afterColon stops spaced
  exact ⟨rest, by simp only [takeMember, readName, welcome, readColon, read, bind, Except.bind],
    left⟩

/-- A member is refused at its name or else where its contents are. -/
theorem refuses_name (refused : member state name = .error fault) :
    Refuses (takeMember member state) [quoteText name] fault := by
  intro others bytes spaced
  obtain ⟨afterName, readName, -⟩ := Spaced.readText spaced
  simp only [takeMember, readName, refused, bind, Except.bind]

theorem refuses_contents (welcome : member state name = .ok reader)
    (refuses : Refuses reader tokens fault) :
    Refuses (takeMember member state) (memberTokens (name, tokens)) fault := by
  intro others bytes spaced
  obtain ⟨afterName, readName, spaced⟩ := Spaced.readText spaced
  obtain ⟨afterColon, readColon, spaced⟩ := spaced.readMark (by decide)
  simp only [takeMember, readName, welcome, readColon, refuses others afterColon spaced, bind,
    Except.bind]

end Member

/-! ## Objects -/

theorem readMembers_succ (member : MemberReader σ) (bound : Nat) (state : σ) (bytes : Bytes) :
    readMembers member (bound + 1) state bytes = (takeMember member state bytes).bind fun found =>
      match dropMark? comma found.2 with
      | some rest => readMembers member bound found.1 rest
      | none => (readMark closeObject found.2).bind fun rest => .ok (found.1, rest) := by
  rw [readMembers, takeMember]
  cases readText bytes with
  | error fault => rfl
  | ok named =>
    simp only [bind, Except.bind]
    cases member state named.1 with
    | error fault => rfl
    | ok contents =>
      cases readMark colon named.2 <;> rfl

/-- Every member of an object takes a part of it. -/
theorem length_lt_length_members (bindings : List (String × List Bytes)) (name : String)
    (others : List Bytes) : bindings.length < (bindings.flatMap (fun binding =>
      memberTokens binding ++ [[comma]]) ++ quoteText name :: others).flatten.length := by
  induction bindings with
  | nil =>
    rw [List.flatMap_nil, List.nil_append, List.flatten_cons, quoteText, quote, List.cons_append,
      List.cons_append]
    exact Nat.succ_pos _
  | cons binding bindings ih =>
    simp only [List.flatMap_cons, List.flatten_append, List.flatten_cons, List.flatten_nil,
      List.append_nil, List.length_append, List.length_cons, List.length_nil] at ih ⊢
    omega

/-- Members admitted one after the other, from one state to another. -/
inductive Admits (member : MemberReader σ) : σ → List (String × List Bytes) → σ → Prop where
  | nil (state : σ) : Admits member state [] state
  | cons {state next last : σ} {name : String} {contents : List Bytes}
      {others : List (String × List Bytes)} {reader : Reader σ}
      (welcome : member state name = .ok reader) (reads : Reads reader contents next)
      (further : Admits member next others last) :
      Admits member state ((name, contents) :: others) last

namespace Admits

variable {member : MemberReader σ} {state last : σ} {bindings : List (String × List Bytes)}
  {others : List Bytes} {bytes : Bytes}

/-- The members before another one are gone through to it. Each takes one from the bound. -/
theorem readMembers_go_on (admits : Admits member state bindings last) {bound : Nat}
    (enough : bindings.length < bound)
    (spaced : Spaced (bindings.flatMap (fun binding => memberTokens binding ++ [[comma]]) ++ others)
      bytes) :
    ∃ left rest, readMembers member bound state bytes = readMembers member (left + 1) last rest ∧
      Spaced others rest := by
  induction admits generalizing bound bytes with
  | nil state =>
    have positive := Nat.sub_add_cancel (Nat.zero_lt_of_lt enough)
    exact ⟨bound - 1, bytes, by rw [positive], spaced⟩
  | @cons state next last name contents bindings reader welcome reads further ih =>
    obtain ⟨bound, rfl⟩ := Nat.exists_eq_succ_of_ne_zero (Nat.ne_of_gt (Nat.zero_lt_of_lt enough))
    rw [List.flatMap_cons, List.append_assoc, List.append_assoc] at spaced
    obtain ⟨afterMember, read, spaced⟩ := reads_member welcome reads _ _
      (stops_cons List.mem_cons_self _) spaced
    obtain ⟨afterComma, between, spaced⟩ := spaced.dropMark? (by decide)
    obtain ⟨left, rest, same, spaced⟩ := ih (Nat.lt_of_succ_lt_succ enough) spaced
    refine ⟨left, rest, ?_, spaced⟩
    rw [readMembers_succ, read]
    simp only [Except.bind, between, same]

/-- So are those in an object, which starts with one. -/
theorem readObject_go_on (admits : Admits member state bindings last) {name : String}
    (spaced : Spaced (openingTokens bindings ++ quoteText name :: others) bytes) :
    ∃ inner left rest, readMark openObject bytes = .ok inner ∧
      readObject member state inner = readMembers member (left + 1) last rest ∧
        Spaced (quoteText name :: others) rest := by
  obtain ⟨inner, opening, spaced⟩ := spaced.readMark (by decide)
  have noEnd : dropMark? closeObject inner = none := by
    cases bindings with
    | nil => exact spaced.dropMark?_eq_none (avoids_quoteText (by decide) name)
    | cons binding bindings =>
      exact spaced.dropMark?_eq_none (avoids_quoteText (by decide) binding.1)
  have enough := Nat.lt_of_lt_of_le (length_lt_length_members bindings name others)
    spaced.length_le
  obtain ⟨left, rest, same, spaced⟩ := admits.readMembers_go_on enough spaced
  exact ⟨inner, left, rest, opening, by rw [readObject, noEnd]; exact same, spaced⟩

theorem split_last {final : String × List Bytes}
    (admits : Admits member state (bindings ++ [final]) last) :
    ∃ before reader, Admits member state bindings before ∧
      member before final.1 = .ok reader ∧ Reads reader final.2 last := by
  induction bindings generalizing state with
  | nil =>
    obtain - | ⟨welcome, reads, further⟩ := admits
    cases further
    exact ⟨state, _, .nil state, welcome, reads⟩
  | cons binding bindings ih =>
    obtain - | ⟨welcome, reads, further⟩ := admits
    obtain ⟨before, reader, front, final⟩ := ih further
    exact ⟨before, reader, .cons welcome reads front, final⟩

/-- **An object is read from its members**, in whatever way they are spaced. -/
theorem readObject_end (admits : Admits member state bindings last)
    (spaced : Spaced (objectTokens bindings ++ others) bytes) :
    ∃ inner rest, readMark openObject bytes = .ok inner ∧
      readObject member state inner = .ok (last, rest) ∧ Spaced others rest := by
  rcases List.eq_nil_or_concat bindings with rfl | ⟨front, final, rfl⟩
  · cases admits
    obtain ⟨inner, opening, spaced⟩ := spaced.readMark (by decide)
    obtain ⟨rest, closing, spaced⟩ := spaced.dropMark? (by decide)
    exact ⟨inner, rest, opening, by rw [readObject, closing], spaced⟩
  · rw [List.concat_eq_append] at *
    obtain ⟨before, reader, admits, welcome, reads⟩ := admits.split_last
    rw [objectTokens_concat, List.append_assoc, List.append_assoc] at spaced
    obtain ⟨inner, left, rest, opening, same, spaced⟩ := admits.readObject_go_on spaced
    obtain ⟨rest, read, spaced⟩ := reads_member welcome reads _ _ (stops_cons (by simp) _) spaced
    have noMore : dropMark? comma rest = none :=
      spaced.dropMark?_eq_none (avoids_singleton (by decide) (by decide))
    obtain ⟨rest, closing, spaced⟩ := spaced.readMark (by decide)
    refine ⟨inner, rest, opening, ?_, spaced⟩
    rw [same, readMembers_succ, read]
    simp only [Except.bind, noMore, closing]

/-- **An object is refused at a member that is**, whatever comes after. -/
theorem readObject_refuses (admits : Admits member state bindings last) {name : String}
    (refuses : Refuses (takeMember member last) (quoteText name :: tokens) fault)
    (spaced : Spaced (openingTokens bindings ++ quoteText name :: tokens ++ others) bytes) :
    ∃ inner, readMark openObject bytes = .ok inner ∧
      readObject member state inner = .error fault := by
  rw [List.append_assoc] at spaced
  obtain ⟨inner, left, rest, opening, same, spaced⟩ := admits.readObject_go_on spaced
  refine ⟨inner, opening, ?_⟩
  rw [same, readMembers_succ, refuses others rest spaced]
  rfl

end Admits

end Standby.Json
