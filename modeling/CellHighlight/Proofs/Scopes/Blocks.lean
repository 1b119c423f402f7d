import CellHighlight.Proofs.Scopes.Lines

/-!
# Blocks

Blocks of code between `do` and `end`, to any depth.  Whatever word begins a block, it or
its `do` opens one scope, and `end` closes that scope again, so a block that is indented
deeper than the scope around it leaves the scopes as they were.  A block with a `rescue` in
it opens a second scope there, which stays open.
-/

namespace CellHighlight

namespace Elixir

inductive Expression : List Char → Prop
  | nil : Expression []
  | space {text : List Char} (htext : Expression text) : Expression (' ' :: text)
  | name {word text : List Char} (hname : IsName word) (hend : headIs extendsWord text = false)
      (htext : Expression text) : Expression (word ++ text)
  | brackets {inner text : List Char} (bracket : Bracket) (hinner : Expression inner)
      (htext : Expression text) :
      Expression (bracket.opener :: (inner ++ bracket.closer :: text))

inductive Head : List Char → Prop
  | opening {word text : List Char} (hword : word ∈ leadingWords)
      (hend : headIs extendsWord text = false) (htext : Expression text) : Head (word ++ text)
  | name {word text : List Char} (hname : IsName word) (hend : headIs extendsWord text = false)
      (htext : Expression text) : Head (word ++ text)

/-- Lines that are indented by `n` spaces, with deeper blocks in between. -/
inductive Block : Nat → List (List Char) → Prop
  | nil {n : Nat} : Block n []
  | expression {n : Nat} {text : List Char} {lines : List (List Char)} (htext : Expression text)
      (hlines : Block n lines) : Block n ((spaces n ++ text) :: lines)
  | compound {n m : Nat} {head : List Char} {body lines : List (List Char)} (hhead : Head head)
      (hdeeper : n < m) (hbody : Block m body) (hlines : Block n lines) :
      Block n ((spaces n ++ (head ++ " do".toList)) ::
        (body ++ (spaces n ++ "end".toList) :: lines))

section

variable {options : Options} {view : View} {first : List Scope} {text rest : List Char}

theorem Expression.of_isName {word : List Char} (h : IsName word) : Expression word := by
  have hname := Expression.name h rfl .nil
  rwa [List.append_nil] at hname

theorem Expression.turns (h : Expression text) (hahead : view.ahead = text ++ rest)
    (hrest : headIs extendsWord rest = false) : Turns options view text first first := by
  induction h generalizing view first rest with
  | nil => exact turns_nil
  | space htext ih => exact (turns_blank rfl hahead).append (ih (ahead_next hahead) hrest)
  | name hname hend htext ih =>
      rw [List.append_assoc] at hahead
      exact (turns_name hname hahead (headIs_append hend hrest)).append
        (ih (ahead_next hahead) hrest)
  | @brackets inner text bracket hinner htext ihinner ihtext =>
      have hclosing : headIs extendsWord (bracket.closer :: (text ++ rest)) = false := by
        cases bracket <;> rfl
      have hinner : (view.next [bracket.opener].length).ahead =
          inner ++ bracket.closer :: (text ++ rest) := ahead_next (by simp [hahead])
      -- A scope is closed only if there is another one below it.
      refine turns_of_ne_nil fun hfirst => ?_
      exact (turns_opener bracket hahead).append ((ihinner hinner hclosing).append
        ((turns_closer bracket (ahead_next hinner) hfirst _).append
          (ihtext (ahead_next (ahead_next hinner)) hrest)))

theorem turns_space_do (hahead : view.ahead = " do".toList) :
    Turns options view " do".toList first
      (if leftOf view.keptIndentation first then ⟨.keyword, view.keptIndentation⟩ :: first
      else first) := by
  have hdo : (view.next [' '].length).ahead = "do".toList ++ [] := ahead_next hahead
  have hturns : Turns options _ "do".toList first _ := turns_do hdo rfl
  rw [keptIndentation_next] at hturns
  exact (turns_blank rfl hahead).append hturns

/-- One scope is opened by a word of the head or, if there is none, by the `do`. -/
theorem Head.turns {head : List Char} (h : Head head) (hahead : view.ahead = head ++ " do".toList)
    (hplace : view.column = view.indentation)
    (hscopes : leftOf view.keptIndentation first = true) :
    Turns options view (head ++ " do".toList) first
      (⟨.keyword, view.keptIndentation⟩ :: first) := by
  cases h with
  | @opening word text hword hend htext =>
      rw [List.append_assoc] at hahead ⊢
      have htext' := ahead_next hahead
      have hdo : Turns options ((view.next word.length).next text.length) " do".toList
          (⟨.keyword, view.keptIndentation⟩ :: first) _ := turns_space_do (ahead_next htext')
      rw [if_neg (by simp [leftOf])] at hdo
      exact (turns_leadingWord hword hahead (headIs_append hend rfl) hplace).append
        ((htext.turns htext' rfl).append hdo)
  | @name word text hname hend htext =>
      have hdo : Turns options (view.next (word ++ text).length) " do".toList first _ :=
        turns_space_do (ahead_next hahead)
      rw [keptIndentation_next, if_pos hscopes] at hdo
      exact ((Expression.name hname hend htext).turns hahead rfl).append hdo

theorem Head.headIs_isBlank {head : List Char} (h : Head head) (rest : List Char) :
    headIs isBlank (head ++ rest) = false := by
  cases h with
  | opening hword hend htext =>
      rw [List.append_assoc]
      exact headIs_isBlank_of_isWord (isWord_of_mem_leadingWords hword).1 _
  | name hname hend htext =>
      rw [List.append_assoc]
      exact headIs_isBlank_of_isWord hname.isWord _

/-! ## Lines of a block -/

variable {n : Nat}

theorem Head.linesTurn {head : List Char} (h : Head head) (hscopes : leftOf n first = true) :
    LinesTurn options [spaces n ++ (head ++ " do".toList)] first (⟨.keyword, n⟩ :: first) := by
  refine linesTurn_line (turns_indented (h.headIs_isBlank _) ?_)
  rintro view hahead hcolumn rfl
  exact h.turns hahead hcolumn hscopes

theorem linesTurn_leadingWord {word : List Char} (hword : word ∈ leadingWords) :
    LinesTurn options [spaces n ++ word] first (⟨.keyword, n⟩ :: first) := by
  have hhead := headIs_isBlank_of_isWord (isWord_of_mem_leadingWords hword).1 []
  rw [List.append_nil] at hhead
  refine linesTurn_line (turns_indented hhead ?_)
  rintro view hahead hcolumn rfl
  exact turns_leadingWord hword (hahead.trans (List.append_nil word).symm) rfl hcolumn

theorem linesTurn_end (hfirst : first ≠ []) (scope : Scope) :
    LinesTurn options [spaces n ++ "end".toList] (scope :: first) first :=
  linesTurn_line (turns_spaces_append fun _ hahead => turns_end hahead rfl hfirst scope)

theorem linesTurn_expression {text : List Char} (htext : Expression text) :
    LinesTurn options [spaces n ++ text] first first :=
  linesTurn_line (turns_spaces_append fun _ hahead =>
    htext.turns (hahead.trans (List.append_nil text).symm) rfl)

theorem ne_nil_of_leftOf {column : Int} (h : leftOf column first = true) : first ≠ [] := by
  rintro rfl
  cases h

theorem leftOf_deeper {n m : Nat} (h : n < m) (kind : ScopeKind) :
    leftOf m (⟨kind, n⟩ :: first) = true := by
  simpa [leftOf] using h

theorem Block.linesTurn {lines : List (List Char)} (h : Block n lines)
    (hscopes : leftOf n first = true) : LinesTurn options lines first first := by
  induction h generalizing first with
  | nil => exact linesTurn_nil
  | expression htext hlines ih => exact (linesTurn_expression htext).append (ih hscopes)
  | compound hhead hdeeper hbody hlines ihbody ihlines =>
      -- For the body the innermost scope is the one of the head, which is less indented.
      refine (hhead.linesTurn hscopes).append ?_
      refine (ihbody (leftOf_deeper hdeeper .keyword)).append ?_
      exact (linesTurn_end (ne_nil_of_leftOf hscopes) _).append (ihlines hscopes)

theorem linesTurn_rescue {m m' : Nat} {body handler : List (List Char)} (hbody : Block m body)
    (hhandler : Block m' handler) (hm : n < m) (hm' : n < m') (hscopes : leftOf n first = true) :
    LinesTurn options
      ((spaces n ++ "try do".toList) :: (body ++ (spaces n ++ "rescue".toList) ::
        (handler ++ [spaces n ++ "end".toList])))
      first (⟨.keyword, n⟩ :: first) := by
  have htry : Head ("try".toList ++ []) := .opening (by decide) rfl .nil
  have hrescue : "rescue".toList ∈ leadingWords := by decide
  refine (htry.linesTurn hscopes).append ?_
  refine (hbody.linesTurn (leftOf_deeper hm .keyword)).append ?_
  refine (linesTurn_leadingWord hrescue).append ?_
  refine (hhandler.linesTurn (leftOf_deeper hm' .keyword)).append ?_
  exact linesTurn_end (List.cons_ne_nil _ first) _

end

theorem State.Reachable.inCode {options : Options} {state : State}
    (h : state.Reachable options) (htop : state.frames.head? = some .base)
    (hlast : state.lastToken ≠ some (.marker .dot)) : state.InCode options :=
  ⟨h.regular.imp fun hshaped => hshaped.eq_base htop, hlast⟩

end Elixir

namespace Grammar

open Elixir

/-- Blocks leave the scopes as they were. -/
theorem scanLines_block (options : Options) {state : State} (hreached : state.Reachable options)
    (htop : state.frames.head? = some .base) (hlast : state.lastToken ≠ some (.marker .dot))
    {n : Nat} {lines : List (List Char)} (hblock : Block n lines)
    (hscopes : leftOf n state.scopes = true) :
    ∃ after, ((elixir options).scanLines (.elixir state) lines).2 = .elixir after ∧
      after.scopes = state.scopes := by
  have hcode := hreached.inCode htop hlast
  obtain ⟨after, -, hafter, hrun⟩ := hblock.linesTurn hscopes state hcode rfl
  exact ⟨after, hrun, hafter⟩

theorem scanLines_block_nested :
    let lines := ["  def run(x) do".toList, "    if done do".toList, "      [a \x7bb\x7d]".toList,
      "    end".toList, "    each do".toList, "    end".toList, "  end".toList, "  y".toList]
    let scopes : List Scope := [⟨.bracket .round, 0⟩, ⟨.root, -2⟩]
    Block 2 lines ∧ ∃ state : State, state.Reachable {} ∧ state.scopes = scopes ∧
      ∃ after, ((elixir {}).scanLines (.elixir state) lines).2 = .elixir after ∧
        after.scopes = scopes := by
  intro lines scopes
  let state : State := ⟨[.base], scopes, 0, some (.marker (.opening .round)), false, false⟩
  have hreached : state.Reachable {} := ⟨["call(".toList], .elixir {}, by simp, by decide⟩
  have hx : Expression "x".toList := .of_isName ⟨rfl, rfl⟩
  have hdone : Expression "done".toList := .of_isName ⟨rfl, rfl⟩
  have hb : Expression "b".toList := .of_isName ⟨rfl, rfl⟩
  have hy : Expression "y".toList := .of_isName ⟨rfl, rfl⟩
  have hrun : IsName "run".toList := ⟨rfl, rfl⟩
  have ha : IsName "a".toList := ⟨rfl, rfl⟩
  have hdef : Head ("def".toList ++ " run(x)".toList) :=
    .opening (by decide) rfl (.space (.name hrun rfl (.brackets .round hx .nil)))
  have hif : Head ("if".toList ++ " done".toList) := .opening (by decide) rfl (.space hdone)
  have heach : Head ("each".toList ++ []) := .name ⟨rfl, rfl⟩ rfl .nil
  have hlist : Expression "[a \x7bb\x7d]".toList :=
    .brackets .square (.name ha rfl (.space (.brackets .curly hb .nil))) .nil
  have hbody : Block 4 _ :=
    .compound hif (by decide : 4 < 6) (.expression hlist .nil)
      (.compound heach (by decide : 4 < 6) .nil .nil)
  have hblock : Block 2 lines :=
    Block.compound hdef (by decide) hbody (.expression hy .nil)
  exact ⟨hblock, state, hreached, rfl,
    scanLines_block {} hreached rfl (by decide) hblock (by decide)⟩

/-- The `end` closes the scope that `rescue` has opened, and that of `try` stays open. -/
theorem scanLines_rescue (options : Options) {state : State} (hreached : state.Reachable options)
    (htop : state.frames.head? = some .base) (hlast : state.lastToken ≠ some (.marker .dot))
    {n m m' : Nat} {body handler : List (List Char)} (hbody : Block m body)
    (hhandler : Block m' handler) (hm : n < m) (hm' : n < m')
    (hscopes : leftOf n state.scopes = true) :
    ∃ after, ((elixir options).scanLines (.elixir state)
      ((spaces n ++ "try do".toList) :: (body ++ (spaces n ++ "rescue".toList) ::
        (handler ++ [spaces n ++ "end".toList])))).2 = .elixir after ∧
      after.scopes = ⟨.keyword, n⟩ :: state.scopes := by
  have hcode := hreached.inCode htop hlast
  obtain ⟨after, -, hafter, hrun⟩ :=
    linesTurn_rescue hbody hhandler hm hm' hscopes state hcode rfl
  exact ⟨after, hrun, hafter⟩

theorem scanLines_rescue_in_block :
    let lines := ["  try do".toList, "    b".toList, "  rescue".toList, "      b".toList,
      "  end".toList]
    let scopes : List Scope := [⟨.keyword, 0⟩, ⟨.root, -2⟩]
    ∃ state : State, state.Reachable {} ∧ state.scopes = scopes ∧
      ∃ after, ((elixir {}).scanLines (.elixir state) lines).2 = .elixir after ∧
        after.scopes = ⟨.keyword, 2⟩ :: scopes := by
  intro lines scopes
  let state : State := ⟨[.base], scopes, 0, some (.keyword "do".toList), false, false⟩
  have hreached : state.Reachable {} := ⟨["run do".toList], .elixir {}, by simp, by decide⟩
  have hb : Expression "b".toList := .of_isName ⟨rfl, rfl⟩
  have hbody : Block 4 ["    b".toList] := Block.expression hb .nil
  have hhandler : Block 6 ["      b".toList] := Block.expression hb .nil
  have hafter := scanLines_rescue {} hreached rfl (by decide) hbody hhandler
    (by decide : 2 < 4) (by decide : 2 < 6) (by decide)
  exact ⟨state, hreached, rfl, hafter⟩

/-- Neither an anonymous function nor a `rescue` leaves the scopes as they were: `fn` opens no
scope, but its `end` closes one. -/
theorem scanLines_end_unpaired :
    let state : State :=
      ⟨[.base], [⟨.keyword, 0⟩, ⟨.root, -2⟩], 0, some (.keyword "do".toList), false, false⟩
    ((elixir {}).scanLines (elixir {}).start ["run do".toList]).2 = .elixir state ∧
      ((elixir {}).scanLines (.elixir state) ["fn a -> b end".toList]).2.elixir?.map
        State.scopes = some [⟨.root, -2⟩] ∧
      ((elixir {}).scanLines (.elixir state) ["  try do".toList, "    b".toList,
        "  rescue".toList, "    b".toList, "  end".toList]).2.elixir?.map State.scopes =
        some [⟨.keyword, 2⟩, ⟨.keyword, 0⟩, ⟨.root, -2⟩] := by
  decide

end Grammar

end CellHighlight
