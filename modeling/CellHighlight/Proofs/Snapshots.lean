import CellHighlight.Snapshot

/-!
# Snapshots read back

Reading a written state gives the state back, whatever it holds, so two states are
never written alike and a host that goes on from a snapshot goes on as if it had kept
the state itself.  Each type has one lemma, and the lemmas follow the nesting of the
types.
-/

namespace CellHighlight

namespace Json

section

variable {α : Type} {decode : Json → Option α} {encode : α → Json}

def Reads (decode : Json → Option α) (encode : α → Json) : Prop :=
  ∀ value, decode (encode value) = some value

theorem Reads.injective (h : Reads decode encode) : Function.Injective encode := by
  intro first second heq
  have hread := congrArg decode heq
  rw [h, h] at hread
  exact Option.some.inj hread

theorem Reads.items (h : Reads decode encode) (values : List α) :
    (values.map encode).mapM decode = some values := by
  induction values with
  | nil => rfl
  | cons value values ih => simp [h value, ih]

theorem toOption?_of_ne_null {json : Json} (h : json ≠ .null) (decode : Json → Option α) :
    toOption? decode json = (decode json).map some := by
  cases json with
  | null => exact absurd rfl h
  | _ => rfl

/-- Absence is written as null, so nothing that is present may be. -/
theorem Reads.option (h : Reads decode encode) (hnull : ∀ value, encode value ≠ .null) :
    Reads (toOption? decode) (ofOption encode) := by
  intro value
  cases value with
  | none => rfl
  | some value => rw [ofOption, toOption?_of_ne_null (hnull value), h value, Option.map_some]

end

theorem reads_text : Reads toText? ofText := by
  intro text
  simp [ofText, toText?]

theorem reads_char : Reads toChar? ofChar := by
  intro c
  simp [ofChar, toChar?]

theorem reads_nat : Reads toNat? fun n => .num n := fun _ => rfl

theorem reads_uint32 : Reads toUInt32? fun n => .num n.toNat := by
  intro n
  have hread : toNat? (.num n.toNat) = some n.toNat := reads_nat n.toNat
  simp [toUInt32?, hread, n.toNat_lt]

end Json

theorem Side.reads : Json.Reads Side.ofJson? Side.toJson := by
  intro side
  cases side <;> rfl

theorem Style.reads : Json.Reads Style.ofJson? Style.toJson := by
  intro style
  cases style with
  | delimiter side => simp [toJson, Json.tagged, ofJson?, Side.reads side]
  | _ => rfl

/-! ## Elixir -/

namespace Elixir

theorem Bracket.reads : Json.Reads Bracket.ofJson? Bracket.toJson := by
  intro bracket
  cases bracket <;> rfl

theorem Marker.reads : Json.Reads Marker.ofJson? Marker.toJson := by
  intro marker
  cases marker with
  | opening bracket => simp [toJson, Json.tagged, ofJson?, Bracket.reads bracket]
  | closing bracket => simp [toJson, Json.tagged, ofJson?, Bracket.reads bracket]
  | _ => rfl

theorem LastToken.reads : Json.Reads LastToken.ofJson? LastToken.toJson := by
  intro last
  cases last with
  | marker marker => simp [toJson, Json.tagged, ofJson?, Marker.reads marker]
  | keyword word => simp [toJson, Json.tagged, ofJson?, Json.reads_text word]
  | other => rfl

theorem LastToken.toJson_ne_null (last : LastToken) : last.toJson ≠ .null := by
  cases last <;> exact nofun

theorem ScopeKind.reads : Json.Reads ScopeKind.ofJson? ScopeKind.toJson := by
  intro kind
  cases kind with
  | bracket bracket => simp [toJson, Json.tagged, ofJson?, Bracket.reads bracket]
  | _ => rfl

theorem Scope.reads : Json.Reads Scope.ofJson? Scope.toJson := by
  intro scope
  dsimp only [toJson, ofJson?, Json.toFields?, Json.field?, List.lookup, String.reduceBEq,
    Json.toInt?, Option.bind_eq_bind, Option.bind_some]
  rw [ScopeKind.reads scope.kind, Option.bind_some]

theorem Quoted.reads : Json.Reads Quoted.ofJson? Quoted.toJson := by
  intro quoted
  dsimp only [toJson, ofJson?, Json.toFields?, Json.field?, List.lookup, String.reduceBEq,
    Json.toBool?, Option.bind_eq_bind, Option.bind_some]
  rw [Json.reads_char quoted.delimiter, Style.reads quoted.style, Option.bind_some,
    Option.bind_some]

theorem Frame.reads : Json.Reads Frame.ofJson? Frame.toJson := by
  intro frame
  cases frame with
  | base => rfl
  | quoted quoted => simp [toJson, Json.tagged, ofJson?, Quoted.reads quoted]
  | heredoc tag indented =>
      show (Json.toText? (.ofText tag)).bind (fun tag => some (heredoc tag indented)) = _
      rw [Json.reads_text tag, Option.bind_some]
  | blockComment => rfl
  | untilBrace depth =>
      show (Json.toUInt32? (.num depth.toNat)).bind (fun depth => some (untilBrace depth)) = _
      rw [Json.reads_uint32 depth, Option.bind_some]
  | once used => rfl

theorem State.reads : Json.Reads State.ofJson? State.toJson := by
  intro state
  -- Stacks are written from the bottom up.
  have hframes := Frame.reads.items state.frames.reverse
  have hscopes := Scope.reads.items state.scopes.reverse
  have hlast := LastToken.reads.option LastToken.toJson_ne_null state.lastToken
  dsimp only [toJson, ofJson?, Json.toFields?, Json.field?, List.lookup, String.reduceBEq,
    Json.toItems?, Json.toInt?, Json.toBool?, Option.bind_eq_bind, Option.bind_some]
  rw [hframes, hscopes, hlast]
  simp only [Option.bind_some, List.reverse_reverse]

end Elixir

/-! ## All grammars -/

theorem R.State.reads : Json.Reads R.State.ofJson? R.State.toJson := by
  intro state
  have hquote := Json.reads_char.option (fun _ => nofun) state.openQuote
  dsimp only [toJson, ofJson?, Json.toFields?, Json.field?, List.lookup, String.reduceBEq,
    Option.bind_eq_bind, Option.bind_some]
  rw [hquote, Option.bind_some]

namespace GrammarState

theorem toJson_ne_null (state : GrammarState) : state.toJson ≠ .null := by
  unfold toJson
  split <;> exact nofun

theorem toJson_mixed (state : MixedState GrammarState) :
    toJson (.mixed state) = .tagged "Multiplex" (.obj
      [("outer", state.outer.toJson),
       ("active", .ofOption (fun index : Nat => .num index) state.region),
       ("inner", .ofOption toJson state.inner),
       ("starting_inner", .bool state.opening)]) := by
  obtain ⟨outer, region, inner, opening⟩ := state
  cases region <;> cases inner <;> simp [toJson, Json.ofOption]

theorem reads : Json.Reads ofJson? toJson
  | .elixir state => by simp [toJson, Json.tagged, ofJson?, Elixir.State.reads state]
  | .plainText => by simp [toJson, ofJson?]
  | .r state => by simp [toJson, Json.tagged, ofJson?, R.State.reads state]
  | .mixed ⟨outer, region, inner, opening⟩ => by
      have houter := reads outer
      have hregion := Json.reads_nat.option (fun _ => nofun) region
      -- The inner state is read by recursion on the fields, not by `toOption? ofJson?`, so
      -- `Reads.option` does not apply.
      have hinner : (Json.ofOption toJson inner).toOption?
          (fun _ => ofJson? (.ofOption toJson inner)) = some inner := by
        cases inner with
        | none => rfl
        | some inner =>
            rw [Json.ofOption, Json.toOption?_of_ne_null inner.toJson_ne_null, reads inner,
              Option.map_some]
      rw [toJson_mixed, Json.tagged, ofJson?]
      dsimp only [statesOfFields, Json.field?, List.lookup, String.reduceBEq, Json.toBool?,
        Option.bind_eq_bind, Option.bind_some, Option.join, id_eq]
      rw [houter, hregion, hinner, Option.bind_some, Option.bind_some, Option.bind_some]

/-- A state is read back from its snapshot as it was, no two states have the same
snapshot, and scanning goes on from what was read as from the state itself. -/
theorem resumes_from_snapshot :
    (∀ state, ofJson? (toJson state) = some state) ∧ Function.Injective toJson ∧
      ∀ (state : GrammarState) (grammar : Grammar) (lines : List (List Char)),
        (ofJson? state.toJson).map (fun restored => grammar.scanLines restored lines) =
          some (grammar.scanLines state lines) := by
  refine ⟨reads, reads.injective, ?_⟩
  intro state grammar lines
  rw [reads state, Option.map_some]

end GrammarState

end CellHighlight
