import LoxLexer.Listing
import LoxLexer.Proofs.Json.Unambiguity

/-!
# Listings in JSON

A listing in JSON is a document that denotes an array with an object for each token, in which every
field of the token stands as it is; the listing has no other reading.  It is no document if a
literal is infinite or not a number.

* `Token.datum` — what the object of a token should denote.
* `Token.IsFinite` — the literal of a token is not an infinite number and not a nan.
* `document_list_iff` — what a listing denotes, if it is a document.
* `list_json_faithful` — a listing of tokens with finite literals denotes its tokens.
-/

namespace LoxLexer

/-- A value that is neither infinite nor a nan. -/
def Binary64.IsFinite (value : Binary64) : Prop := ∃ negative rank, value = .finite negative rank

/-- What the literal of a token should denote. -/
def literalDatum : Option Literal → Json.Datum
  | none => .null
  | some (.number value) => .number value
  | some (.text value) => .string (Json.points value)

namespace Token

/-- What the object of a token should denote. -/
def datum (token : Token) : Json.Datum :=
  .object [(Json.points "type".toList, .string (Json.points token.kind.name)),
    (Json.points "lexeme".toList, .string (Json.points token.lexeme)),
    (Json.points "literal".toList, literalDatum token.literal),
    (Json.points "line".toList, .integer token.line)]

/-- The literal of a token is not an infinite number and not a nan. -/
def IsFinite (token : Token) : Prop :=
  ∀ value, token.literal = some (.number value) → value.IsFinite

theorem datum_toJson (token : Token) : token.toJson.datum = token.datum := by
  have hliteral : (literalJson token.literal).datum = literalDatum token.literal := by
    rcases token.literal with _ | ⟨value | value⟩ <;> rfl
  rw [datum, ← hliteral]
  rfl

theorem isFinite_toJson_iff (token : Token) : token.toJson.IsFinite ↔ token.IsFinite := by
  constructor
  · rintro h value hvalue
    cases h with
    | object hmembers =>
        have hliteral : (Json.number value).IsFinite := by
          have hmember := hmembers ("literal".toList, literalJson token.literal) (by simp)
          rwa [hvalue] at hmember
        cases hliteral with
        | number negative rank => exact ⟨negative, rank, rfl⟩
  · intro h
    have hliteral : (literalJson token.literal).IsFinite := by
      cases hvalue : token.literal with
      | none => exact .null
      | some literal =>
          cases literal with
          | number value =>
              obtain ⟨negative, rank, rfl⟩ := h value hvalue
              exact .number negative rank
          | text value => exact .string value
    refine .object fun member hmember => ?_
    simp only [List.mem_cons, List.not_mem_nil, or_false] at hmember
    obtain rfl | rfl | rfl | rfl := hmember
    · exact .string _
    · exact .string _
    · exact hliteral
    · exact .integer _

end Token

/-! ### Listings -/

theorem mem_of_mem_shown {showEof : Bool} {found : List Token} {token : Token}
    (h : token ∈ shown showEof found) : token ∈ found := by
  cases showEof with
  | true => exact h
  | false => exact List.mem_of_mem_filter h

/-- A listing denotes its tokens and nothing else, if their literals are finite; otherwise it is no
document. -/
theorem document_list_iff (showEof : Bool) (found : List Token) (denoted : Json.Datum) :
    Json.Document (Format.json.list showEof found) denoted ↔
      (∀ token ∈ shown showEof found, token.IsFinite) ∧
        denoted = .array ((shown showEof found).map Token.datum) := by
  have hfinite : (Json.array ((shown showEof found).map Token.toJson)).IsFinite ↔
      ∀ token ∈ shown showEof found, token.IsFinite := by
    constructor
    · rintro (_ | _ | _ | _ | hitems) token htoken
      exact token.isFinite_toJson_iff.mp (hitems _ (List.mem_map_of_mem htoken))
    · intro h
      refine .array fun item hitem => ?_
      obtain ⟨token, htoken, rfl⟩ := List.mem_map.mp hitem
      exact token.isFinite_toJson_iff.mpr (h token htoken)
  have hdatum : (Json.array ((shown showEof found).map Token.toJson)).datum =
      .array ((shown showEof found).map Token.datum) := by
    rw [Json.datum, Json.itemData_eq, List.map_map]
    exact congrArg _ (List.map_congr_left fun token _ => token.datum_toJson)
  rw [Format.list, Json.document_iff, hfinite, hdatum]

/-- A listing is a document if and only if the literals that it shows are finite. -/
theorem isDocument_list_iff (showEof : Bool) (found : List Token) :
    Json.IsDocument (Format.json.list showEof found) ↔
      ∀ token ∈ shown showEof found, token.IsFinite := by
  simp [Json.IsDocument, document_list_iff]

/-- A listing ends with the bracket of its array and one line feed. -/
theorem exists_list_eq (showEof : Bool) (found : List Token) :
    ∃ body, Format.json.list showEof found = body ++ [']', '\n'] := by
  rw [Format.list, Json.write_array]
  cases ((shown showEof found).map Token.toJson).map (Json.write 1) with
  | nil => exact ⟨['['], rfl⟩
  | cons entry entries =>
      refine ⟨'[' :: (Json.newLine 1 ++ (entry ++ (Json.further 1 entries ++ Json.newLine 0))), ?_⟩
      simp [Json.layout]

/-- A listing of tokens with finite literals is in ASCII and ends with one line feed; it is a
document that denotes an array with an object for each token that is shown, and nothing else. -/
theorem list_json_faithful (showEof : Bool) (found : List Token)
    (h : ∀ token ∈ found, token.IsFinite) :
    (∀ c ∈ Format.json.list showEof found, c.toNat < 0x80) ∧
      (∃ body, Format.json.list showEof found = body ++ [']', '\n']) ∧
      ∀ denoted, Json.Document (Format.json.list showEof found) denoted ↔
        denoted = .array ((if showEof then found else found.filter (·.kind ≠ .eof)).map
          Token.datum) := by
  refine ⟨fun c hc => ?_, exists_list_eq showEof found, fun denoted => ?_⟩
  · rcases List.mem_append.mp hc with hbody | hfeed
    · exact of_decide_eq_true (Json.isAscii_of_mem_write _ hbody)
    · rw [List.mem_singleton.mp hfeed]
      decide
  · rw [document_list_iff]
    exact and_iff_right fun token htoken => h token (mem_of_mem_shown htoken)

/-- A string with characters of every way of escaping, a negative zero, and a line before the
first. -/
theorem list_json_faithful_escapes :
    Json.Document
      (Format.json.list false
        [⟨.string, ['"', '𝄞', 'é', '\\', '\x00', '\n', '"'],
            some (.text ['𝄞', 'é', '\\', '\x00', '\n']), 1⟩,
          ⟨.number, ['0'], some (.number (.finite true ⟨0, by decide⟩)), -3⟩, Token.endOfFile 1])
      (.array
        [.object [(Json.points "type".toList, .string (Json.points "STRING".toList)),
            (Json.points "lexeme".toList, .string [0x22, 0x1d11e, 0xe9, 0x5c, 0x00, 0x0a, 0x22]),
            (Json.points "literal".toList, .string [0x1d11e, 0xe9, 0x5c, 0x00, 0x0a]),
            (Json.points "line".toList, .integer 1)],
          .object [(Json.points "type".toList, .string (Json.points "NUMBER".toList)),
            (Json.points "lexeme".toList, .string [0x30]),
            (Json.points "literal".toList, .number (.finite true ⟨0, by decide⟩)),
            (Json.points "line".toList, .integer (-3))]]) := by
  refine ((list_json_faithful false _ ?_).2.2 _).mpr rfl
  intro token htoken value hvalue
  simp only [List.mem_cons, List.not_mem_nil, or_false] at htoken
  obtain rfl | rfl | rfl := htoken
  · simp at hvalue
  · cases hvalue
    exact ⟨true, _, rfl⟩
  · simp [Token.endOfFile] at hvalue

end LoxLexer
