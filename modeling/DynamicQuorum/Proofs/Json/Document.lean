/-
  DynamicQuorum/Proofs/Json/Document.lean
  =======================================
  **A value that was written is read as its draft.**

  The tokens of a value stand between its text and its draft: both forms of the text scan to
  them, and from them the draft is built.  The three inductions follow the recursion of the
  renderers over values, over the items behind the first and over the members behind the first.
-/
import DynamicQuorum.Json.Draft
import DynamicQuorum.Proofs.Json.Token

namespace DynamicQuorum.Json

open Token (Scans Ends)

namespace Value

def IsText (v : Value) (text : String) : Prop := text = v.toText ∨ text = v.toIndentedText

mutual

def tokens : Value → List Token
  | .null => [.null]
  | .bool b => [.bool b]
  | .number n => [.number (.ofInt n)]
  | .string s => [.string (some s)]
  | .array [] => [.openBracket, .closeBracket]
  | .array (v :: rest) => .openBracket :: (tokens v ++ itemTokens rest ++ [.closeBracket])
  | .object [] => [.openBrace, .closeBrace]
  | .object ((k, v) :: rest) =>
    .openBrace :: (.string (some k) :: .colon :: tokens v ++ memberTokens rest ++ [.closeBrace])

/-- The items behind the first, each with a comma in front. -/
def itemTokens : List Value → List Token
  | [] => []
  | v :: rest => .comma :: (tokens v ++ itemTokens rest)

def memberTokens : List (String × Value) → List Token
  | [] => []
  | (k, v) :: rest => .comma :: (.string (some k) :: .colon :: tokens v ++ memberTokens rest)

end

/-! ### On one line -/

theorem ends_renderItems (items : List Value) : Ends (renderItems items) := by
  cases items with
  | nil => exact .nil
  | cons v rest => exact .cons (.inl rfl) _

theorem ends_renderMembers (members : List (String × Value)) : Ends (renderMembers members) := by
  cases members with
  | nil => exact .nil
  | cons m rest => exact .cons (.inl rfl) _

theorem ends_bracket : Ends [']'] := .cons (.inr (.inl rfl)) []

theorem ends_brace : Ends ['\x7d'] := .cons (.inr (.inr (.inl rfl))) []

theorem scans_member {text : List Char} {tokens : List Token} (k : String)
    (h : Scans text tokens) :
    Scans (Token.quote k.toList ++ ':' :: text) (.string (some k) :: .colon :: tokens) :=
  Scans.quote k (.mark rfl h)

mutual

theorem scans_render : ∀ v : Value, Scans v.render v.tokens
  | .null => Token.scans_word (by decide) rfl
  | .bool true => Token.scans_word (by decide) rfl
  | .bool false => Token.scans_word (by decide) rfl
  | .number n => Token.scans_number n
  | .string s => by
    have hquote := Scans.nil.quote s
    rwa [List.append_nil] at hquote
  | .array [] => .mark rfl (.mark rfl .nil)
  | .array (v :: rest) => by
    have hitems := (scans_render v).append (ends_renderItems rest) (scans_renderItems rest)
    exact .mark rfl (hitems.append ends_bracket (.mark rfl .nil))
  | .object [] => .mark rfl (.mark rfl .nil)
  | .object ((k, v) :: rest) => by
    have hmembers := (scans_member k (scans_render v)).append (ends_renderMembers rest)
      (scans_renderMembers rest)
    exact .mark rfl (hmembers.append ends_brace (.mark rfl .nil))

theorem scans_renderItems : ∀ items : List Value, Scans (renderItems items) (itemTokens items)
  | [] => .nil
  | v :: rest =>
    .mark rfl ((scans_render v).append (ends_renderItems rest) (scans_renderItems rest))

theorem scans_renderMembers :
    ∀ members : List (String × Value), Scans (renderMembers members) (memberTokens members)
  | [] => .nil
  | (k, v) :: rest =>
    .mark rfl ((scans_member k (scans_render v)).append (ends_renderMembers rest)
      (scans_renderMembers rest))

end

/-! ### Indented -/

theorem ends_newLine (depth : Nat) (text : List Char) : Ends (newLine depth ++ text) :=
  .cons (.inr (.inr (.inr rfl))) _

theorem scans_newLine {text : List Char} {tokens : List Token} (depth : Nat)
    (h : Scans text tokens) : Scans (newLine depth ++ text) tokens := by
  refine .blank rfl ?_
  change Scans (List.replicate (2 * depth) ' ' ++ text) tokens
  induction 2 * depth with
  | zero => exact h
  | succ n ih => exact .blank rfl ih

/-- The closing mark stands on a line of its own. -/
theorem scans_close {text : List Char} {tokens : List Token} {c : Char} {token : Token}
    (depth : Nat) (hc : Token.start? c = some ([token], .idle)) (h : Scans text tokens) :
    Scans (text ++ newLine depth ++ [c]) (tokens ++ [token]) := by
  rw [List.append_assoc]
  exact h.append (ends_newLine depth [c]) (scans_newLine depth (.mark hc .nil))

theorem scans_indentedMember {text : List Char} {tokens : List Token} (depth : Nat) (k : String)
    (h : Scans text tokens) : Scans (newLine depth ++ Token.quote k.toList ++ ':' :: ' ' :: text)
      (.string (some k) :: .colon :: tokens) := by
  rw [List.append_assoc]
  exact scans_newLine depth (scans_member k (.blank rfl h))

theorem ends_renderIndentedItems (depth : Nat) (items : List Value) :
    Ends (renderIndentedItems depth items) := by
  cases items with
  | nil => exact .nil
  | cons v rest => exact .cons (.inl rfl) _

theorem ends_renderIndentedMembers (depth : Nat) (members : List (String × Value)) :
    Ends (renderIndentedMembers depth members) := by
  cases members with
  | nil => exact .nil
  | cons m rest => exact .cons (.inl rfl) _

mutual

/-- Over several lines the tokens are the same, for blanks between them are passed over. -/
theorem scans_renderIndented : ∀ (depth : Nat) (v : Value), Scans (v.renderIndented depth) v.tokens
  | _, .null => scans_render .null
  | _, .bool b => scans_render (.bool b)
  | _, .number n => scans_render (.number n)
  | _, .string s => scans_render (.string s)
  | _, .array [] => scans_render (.array [])
  | depth, .array (v :: rest) => by
    have hfirst := scans_newLine (depth + 1) (scans_renderIndented (depth + 1) v)
    have hitems := hfirst.append (ends_renderIndentedItems (depth + 1) rest)
      (scans_renderIndentedItems (depth + 1) rest)
    exact .mark rfl (scans_close depth rfl hitems)
  | _, .object [] => scans_render (.object [])
  | depth, .object ((k, v) :: rest) => by
    have hfirst := scans_indentedMember (depth + 1) k (scans_renderIndented (depth + 1) v)
    have hmembers := hfirst.append (ends_renderIndentedMembers (depth + 1) rest)
      (scans_renderIndentedMembers (depth + 1) rest)
    exact .mark rfl (scans_close depth rfl hmembers)

theorem scans_renderIndentedItems :
    ∀ (depth : Nat) (items : List Value),
      Scans (renderIndentedItems depth items) (itemTokens items)
  | _, [] => .nil
  | depth, v :: rest => by
    have hfirst := scans_newLine depth (scans_renderIndented depth v)
    exact .mark rfl (hfirst.append (ends_renderIndentedItems depth rest)
      (scans_renderIndentedItems depth rest))

theorem scans_renderIndentedMembers :
    ∀ (depth : Nat) (members : List (String × Value)),
      Scans (renderIndentedMembers depth members) (memberTokens members)
  | _, [] => .nil
  | depth, (k, v) :: rest => by
    have hfirst := scans_indentedMember depth k (scans_renderIndented depth v)
    exact .mark rfl (hfirst.append (ends_renderIndentedMembers depth rest)
      (scans_renderIndentedMembers depth rest))

end

end Value

/-! ### Building the draft -/

namespace Document

open Draft (complete)

/-- No value starts with the bracket that would close an empty array. -/
theorem build_firstItem (v : Value) (stack : List Draft.Frame) (rest : List Token) :
    build .firstItem stack (v.tokens ++ rest) =
      build .value (.array [] :: stack) (v.tokens ++ rest) := by
  cases v with
  | null => rfl
  | bool b => rfl
  | number n => rfl
  | string s => rfl
  | array items => cases items <;> rfl
  | object members => rcases members with _ | ⟨⟨k, v⟩, members⟩ <;> rfl

mutual

/-- The tokens of a value build its draft, whatever is open around it and follows it. -/
theorem build_tokens : ∀ (v : Value) (stack : List Draft.Frame) (rest : List Token),
    build .value stack (v.tokens ++ rest) =
      build (complete v.toDraft stack).1 (complete v.toDraft stack).2 rest
  | .null, _, _ => rfl
  | .bool _, _, _ => rfl
  | .number _, _, _ => rfl
  | .string _, _, _ => rfl
  | .array [], _, _ => rfl
  | .array (v :: items), stack, rest => by
    have hopen : build .value stack ((Value.array (v :: items)).tokens ++ rest) =
        build .firstItem stack (v.tokens ++ (Value.itemTokens items ++ .closeBracket :: rest)) := by
      simp [Value.tokens, build, Draft.step, Draft.valueStep]
    rw [hopen, build_firstItem, build_tokens]
    exact build_itemTokens items [v.toDraft] stack rest
  | .object [], _, _ => rfl
  | .object ((k, v) :: members), stack, rest => by
    have hopen : build .value stack ((Value.object ((k, v) :: members)).tokens ++ rest) =
        build .value (.object [] (some k) :: stack)
          (v.tokens ++ (Value.memberTokens members ++ .closeBrace :: rest)) := by
      simp [Value.tokens, build, Draft.step, Draft.valueStep]
    rw [hopen, build_tokens]
    exact build_memberTokens members [(some k, v.toDraft)] stack rest

theorem build_itemTokens : ∀ (items : List Value) (before : List Draft)
    (stack : List Draft.Frame) (rest : List Token),
    build (.afterItem before) stack (Value.itemTokens items ++ .closeBracket :: rest) =
      build (complete (.array (before ++ Value.toDrafts items) true) stack).1
        (complete (.array (before ++ Value.toDrafts items) true) stack).2 rest
  | [], before, stack, rest => by
    rw [Value.toDrafts, List.append_nil]
    rfl
  | v :: items, before, stack, rest => by
    have hcomma : build (.afterItem before) stack
          (Value.itemTokens (v :: items) ++ .closeBracket :: rest) =
        build .value (.array before :: stack)
          (v.tokens ++ (Value.itemTokens items ++ .closeBracket :: rest)) := by
      simp [Value.itemTokens, build, Draft.step]
    rw [hcomma, build_tokens]
    refine (build_itemTokens items (before ++ [v.toDraft]) stack rest).trans ?_
    rw [Value.toDrafts, List.append_assoc, List.singleton_append]

theorem build_memberTokens : ∀ (members : List (String × Value))
    (before : List (Option String × Draft)) (stack : List Draft.Frame) (rest : List Token),
    build (.afterMember before) stack (Value.memberTokens members ++ .closeBrace :: rest) =
      build (complete (.object (before ++ Value.toMemberDrafts members) true) stack).1
        (complete (.object (before ++ Value.toMemberDrafts members) true) stack).2 rest
  | [], before, stack, rest => by
    rw [Value.toMemberDrafts, List.append_nil]
    rfl
  | (k, v) :: members, before, stack, rest => by
    have hcomma : build (.afterMember before) stack
          (Value.memberTokens ((k, v) :: members) ++ .closeBrace :: rest) =
        build .value (.object before (some k) :: stack)
          (v.tokens ++ (Value.memberTokens members ++ .closeBrace :: rest)) := by
      simp [Value.memberTokens, build, Draft.step]
    rw [hcomma, build_tokens]
    refine (build_memberTokens members (before ++ [(some k, v.toDraft)]) stack rest).trans ?_
    rw [Value.toMemberDrafts, List.append_assoc, List.singleton_append]

end

theorem read_of_scans {v : Value} {text : List Char} (h : Scans text v.tokens) :
    read (String.ofList text) = ⟨v.toDraft, false⟩ := by
  have hbuild := build_tokens v [] []
  rw [List.append_nil] at hbuild
  rw [read, String.toList_ofList, h.ofText, hbuild]
  rfl

theorem read_of_isText {v : Value} {text : String} (h : v.IsText text) :
    read text = ⟨v.toDraft, false⟩ := by
  rcases h with rfl | rfl
  · exact read_of_scans v.scans_render
  · exact read_of_scans (Value.scans_renderIndented 0 v)

end Document

end DynamicQuorum.Json
