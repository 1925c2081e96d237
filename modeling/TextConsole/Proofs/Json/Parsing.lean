import TextConsole.Proofs.Json.Lexing

/-!
# Texts are read as the values they write

The machine with a stack reads the tokens of a value back as that value, in whatever arrays and
objects are open around it (`reads_tokens`). In the tokens of a value no two words are
neighbours (`isChain_tokens`), since punctuation stands between any two values, so every text
that writes a value is read as that value (`Writes.parse?_eq`).

A value is followed through the functions that list its tokens, by the induction that belongs
to them.
-/

namespace TextConsole.Json

variable {v : Json}

/-! ## Words are apart -/

/-- What follows an item or a member is no word. -/
theorem head_moreItemTokens (items : List Json) :
    ∀ t ∈ (moreItemTokens items).head?, t.isWord = false := by
  cases items <;> simp [moreItemTokens, Token.isWord]

theorem head_moreMemberTokens (members : List (Text × Json)) :
    ∀ t ∈ (moreMemberTokens members).head?, t.isWord = false := by
  rcases members with _ | ⟨⟨key, v⟩, rest⟩ <;> simp [moreMemberTokens, Token.isWord]

theorem isChain_cons_of_not_isWord {t : Token} {ts : List Token} (ht : t.isWord = false)
    (hts : ts.IsChain Token.Apart) : (t :: ts).IsChain Token.Apart :=
  List.isChain_cons.mpr ⟨fun _ _ => Or.inl ht, hts⟩

theorem isChain_append_of_not_isWord {ts us : List Token} (hts : ts.IsChain Token.Apart)
    (hus : us.IsChain Token.Apart) (hhead : ∀ u ∈ us.head?, u.isWord = false) :
    (ts ++ us).IsChain Token.Apart :=
  hts.append hus fun _ _ u hu => Or.inr (hhead u hu)

/-- **No two words of a value are neighbours.** -/
theorem isChain_tokens (v : Json) : (tokens v).IsChain Token.Apart := by
  have member : ∀ (key : Text) (v : Json) (rest : List (Text × Json)),
      (tokens v).IsChain Token.Apart → (moreMemberTokens rest).IsChain Token.Apart →
        (Token.str key :: .colon :: (tokens v ++ moreMemberTokens rest)).IsChain Token.Apart := by
    intro key v rest hv hrest
    exact isChain_cons_of_not_isWord rfl (isChain_cons_of_not_isWord rfl
      (isChain_append_of_not_isWord hv hrest (head_moreMemberTokens rest)))
  refine (tokens.mutual_induct (fun v => (tokens v).IsChain Token.Apart)
    (fun members => (memberTokens members).IsChain Token.Apart)
    (fun members => (moreMemberTokens members).IsChain Token.Apart)
    (fun items => (itemTokens items).IsChain Token.Apart)
    (fun items => (moreItemTokens items).IsChain Token.Apart)
    ?null ?bool ?num ?str ?arr ?obj ?noItems ?items ?noMoreItems ?moreItems ?noMembers ?members
    ?noMoreMembers ?moreMembers).1 v
  case null | bool | num | str =>
    intros
    rw [tokens]
    exact .singleton _
  case arr =>
    intro items ih
    rw [tokens]
    exact isChain_cons_of_not_isWord rfl ih
  case obj =>
    intro members ih
    rw [tokens]
    exact isChain_cons_of_not_isWord rfl ih
  case noItems | noMoreItems | noMembers | noMoreMembers => exact .singleton _
  case items =>
    intro v rest hv hrest
    rw [itemTokens]
    exact isChain_append_of_not_isWord hv hrest (head_moreItemTokens rest)
  case moreItems =>
    intro v rest hv hrest
    rw [moreItemTokens]
    exact isChain_cons_of_not_isWord rfl
      (isChain_append_of_not_isWord hv hrest (head_moreItemTokens rest))
  case members =>
    intro key v rest hv hrest
    rw [memberTokens]
    exact member key v rest hv hrest
  case moreMembers =>
    intro key v rest hv hrest
    rw [moreMemberTokens]
    exact isChain_cons_of_not_isWord rfl (member key v rest hv hrest)

/-! ## Values are put together -/

namespace Parser

/-- Whether reading some tokens takes a machine from one state to another. -/
def Reads (p : Parser) (ts : List Token) (p' : Parser) : Prop :=
  ∀ rest, (ts ++ rest).foldlM step p = rest.foldlM step p'

variable {p p' p'' : Parser} {ts us : List Token} {t : Token}

theorem Reads.cons (h : p.step t = some p') (hts : p'.Reads ts p'') : p.Reads (t :: ts) p'' := by
  intro rest
  rw [List.cons_append, List.foldlM_cons, h]
  exact hts rest

theorem Reads.one (h : p.step t = some p') : p.Reads [t] p' :=
  .cons h fun _ => rfl

theorem Reads.append (h : p.Reads ts p') (h' : p'.Reads us p'') : p.Reads (ts ++ us) p'' := by
  intro rest
  rw [List.append_assoc, h, h']

/-- The first item of an array is read like any other value. -/
theorem reads_firstItem {stack : List Frame}
    (h : Reads ⟨.items [] :: stack, .value⟩ (tokens v ++ ts) p) :
    Reads ⟨stack, .firstItem⟩ (tokens v ++ ts) p := by
  intro rest
  rw [← h rest]
  cases v <;> rfl

/-- **The tokens of a value are read as that value**, whatever is open around it. -/
theorem reads_tokens (v : Json) :
    ∀ stack : List Frame, Reads ⟨stack, .value⟩ (tokens v) ⟨stack, .after v⟩ := by
  refine (tokens.mutual_induct
    (fun v => ∀ stack, Reads ⟨stack, .value⟩ (tokens v) ⟨stack, .after v⟩)
    (fun members => ∀ stack,
      Reads ⟨stack, .firstKey⟩ (memberTokens members) ⟨stack, .after (obj members)⟩)
    (fun members => ∀ stack done key v,
      Reads ⟨.member done key :: stack, .after v⟩ (moreMemberTokens members)
        ⟨stack, .after (obj (((key, v) :: done).reverse ++ members))⟩)
    (fun items => ∀ stack,
      Reads ⟨stack, .firstItem⟩ (itemTokens items) ⟨stack, .after (arr items)⟩)
    (fun items => ∀ stack done v,
      Reads ⟨.items done :: stack, .after v⟩ (moreItemTokens items)
        ⟨stack, .after (arr ((v :: done).reverse ++ items))⟩)
    ?null ?bool ?num ?str ?arr ?obj ?noItems ?items ?noMoreItems ?moreItems ?noMembers ?members
    ?noMoreMembers ?moreMembers).1 v
  case null | bool | num | str =>
    intros
    rw [tokens]
    exact .one rfl
  case arr =>
    intro items ih stack
    rw [tokens]
    exact .cons rfl (ih stack)
  case obj =>
    intro members ih stack
    rw [tokens]
    exact .cons rfl (ih stack)
  case noItems | noMembers => exact fun stack => .one rfl
  case items =>
    intro v rest hv hrest stack
    rw [itemTokens]
    exact reads_firstItem ((hv _).append (hrest stack [] v))
  case noMoreItems =>
    intro stack done v
    rw [moreItemTokens, List.append_nil]
    exact .one rfl
  case moreItems =>
    intro v rest hv hrest stack done w
    have hmore := hrest stack (w :: done) v
    rw [List.reverse_cons, List.append_assoc] at hmore
    rw [moreItemTokens]
    exact .cons rfl ((hv _).append hmore)
  case members =>
    intro key v rest hv hrest stack
    rw [memberTokens]
    exact .cons rfl (.cons rfl ((hv _).append (hrest stack [] key v)))
  case noMoreMembers =>
    intro stack done key v
    rw [moreMemberTokens, List.append_nil]
    exact .one rfl
  case moreMembers =>
    intro key v rest hv hrest stack done key' w
    have hmore := hrest stack ((key', w) :: done) key v
    rw [List.reverse_cons, List.append_assoc] at hmore
    rw [moreMemberTokens]
    exact .cons rfl (.cons rfl (.cons rfl ((hv _).append hmore)))

end Parser

/-- The tokens of a value are read back. -/
theorem ofTokens?_tokens (v : Json) : ofTokens? (tokens v) = some v := by
  have hrun := Parser.reads_tokens v [] []
  rw [List.append_nil] at hrun
  rw [ofTokens?]
  show ((tokens v).foldlM Parser.step ⟨[], .value⟩ >>= Parser.finish?) = _
  rw [hrun]
  rfl

/-- **A text that writes a value is read as that value.** -/
theorem Writes.parse?_eq {text : String} (h : Writes v text) : parse? text = some v := by
  rw [parse?, h.tokens?_eq (isChain_tokens v), Option.bind_eq_bind, Option.bind_some,
    ofTokens?_tokens]

end TextConsole.Json
