import Gungnir.View.SpearRenderer
import Gungnir.Library.Encoding
import Gungnir.Library.Fallible

/-!
# Automatic escaping

Without raw interpolations a Spear template writes only its text nodes and escaped
values. The renderer keeps this for the output and for the stored sections, level by
level; the parser makes a raw interpolation only of a text that opens one.
-/

namespace Gungnir.View

open Gungnir.Core Gungnir.Library List

/-! ## Escaped text -/

/-- The entities that `escape` writes. -/
def entities : List Bytes := ["&amp;", "&lt;", "&gt;", "&#39;", "&quot;"].map ascii

theorem encoded_cases (c : UInt8) :
    (encoded c ∈ entities ∧ (c = 38 ∨ c = 60 ∨ c = 62 ∨ c = 39 ∨ c = 34)) ∨
      (encoded c = [c] ∧ c ≠ 38 ∧ c ≠ 60 ∧ c ≠ 62 ∧ c ≠ 39 ∧ c ≠ 34) := by
  by_cases special : c = 38 ∨ c = 60 ∨ c = 62 ∨ c = 39 ∨ c = 34
  · refine .inl ⟨?_, special⟩
    rcases special with rfl | rfl | rfl | rfl | rfl <;> decide
  · push Not at special
    obtain ⟨ampersand, less, greater, quote, double⟩ := special
    refine .inr ⟨?_, ampersand, less, greater, quote, double⟩
    simp only [encoded, ampersand, less, greater, quote, double, if_false]

theorem entity_shape {entity : Bytes} (member : entity ∈ entities) :
    entity.head? = some 38 ∧ 1 < entity.length ∧
      (38 : UInt8) ∉ entity.tail ∧ (60 : UInt8) ∉ entity ∧ (62 : UInt8) ∉ entity ∧
      (39 : UInt8) ∉ entity ∧ (34 : UInt8) ∉ entity := by
  simp only [entities, map_cons, map_nil, mem_cons, not_mem_nil, or_false]
    at member
  rcases member with rfl | rfl | rfl | rfl | rfl <;> decide

theorem separated_encoded : Separated encoded := by
  constructor
  · intro c empty
    rcases encoded_cases c with ⟨member, _⟩ | ⟨single, _⟩
    · have shape := entity_shape member
      rw [empty] at shape
      cases shape.1
    · rw [single] at empty
      cases empty
  · intro first second starts
    rcases encoded_cases first with ⟨member, special⟩ | ⟨single, ampersand, _⟩
    · rcases encoded_cases second with ⟨_, otherSpecial⟩ | ⟨otherSingle, _⟩
      · rcases special with rfl | rfl | rfl | rfl | rfl <;>
          rcases otherSpecial with rfl | rfl | rfl | rfl | rfl <;> revert starts <;> decide
      · have short := starts.length_le
        rw [otherSingle, length_singleton] at short
        have long := (entity_shape member).2.1
        omega
    · rcases encoded_cases second with ⟨otherMember, _⟩ | ⟨otherSingle, _⟩
      · obtain ⟨rest, shape⟩ := starts
        rw [single] at shape
        have heads := (entity_shape otherMember).1
        rw [← shape] at heads
        exact absurd (Option.some.inj heads) ampersand
      · rw [single, otherSingle] at starts
        simpa using starts

variable {source result : Bytes}

theorem escape_ok (done : escape source = .ok result) : result = source.flatMap encoded := by
  unfold escape at done
  split at done
  · cases done
  · refine foldlM_tracks (fun seen result => result = seen.flatMap encoded) ?_ done [] rfl
    intro seen before c after ran text
    split at ran
    · cases ran
    · cases ran
      rw [text, flatMap_append, flatMap_singleton]

theorem escape_injective {first second : Bytes} (done : escape first = .ok result)
    (other : escape second = .ok result) : first = second :=
  separated_encoded.flatMap_injective ((escape_ok done).symm.trans (escape_ok other))

/-- An escaped text has no character that ends a text or an attribute value. -/
theorem not_mem_escape (done : escape source = .ok result) {c : UInt8}
    (markup : c = 60 ∨ c = 62 ∨ c = 34 ∨ c = 39) : c ∉ result := by
  rw [escape_ok done]
  intro member
  obtain ⟨origin, _, inside⟩ := mem_flatMap.mp member
  rcases encoded_cases origin with ⟨entity, _⟩ | ⟨single, _, less, greater, quote, double⟩
  · obtain ⟨_, _, _, noLess, noGreater, noQuote, noDouble⟩ := entity_shape entity
    rcases markup with rfl | rfl | rfl | rfl
    · exact noLess inside
    · exact noGreater inside
    · exact noDouble inside
    · exact noQuote inside
  · rw [single, mem_singleton] at inside
    subst inside
    rcases markup with rfl | rfl | rfl | rfl
    · exact less rfl
    · exact greater rfl
    · exact double rfl
    · exact quote rfl

theorem encoded_leads (c : UInt8) (before after : Bytes)
    (shape : encoded c = before ++ 38 :: after) : before = [] := by
  cases before with
  | nil => rfl
  | cons head tail =>
    rcases encoded_cases c with ⟨member, _⟩ | ⟨single, _⟩
    · have clear := (entity_shape member).2.2.1
      rw [shape] at clear
      exact absurd (mem_append_right tail mem_cons_self) clear
    · rw [single] at shape
      have lengths := congrArg length shape
      simp at lengths

/-- An ampersand of an escaped text starts an entity. -/
theorem ampersand_escape {before after : Bytes} (done : escape source = .ok result)
    (occurs : result = before ++ 38 :: after) : ∃ entity ∈ entities, entity <+: 38 :: after := by
  rw [escape_ok done] at occurs
  obtain ⟨c, _, starts, heads⟩ := occurrence_flatMap encoded_leads occurs
  rcases encoded_cases c with ⟨member, _⟩ | ⟨single, ampersand, _⟩
  · exact ⟨encoded c, member, starts⟩
  · rw [single] at heads
    exact absurd (Option.some.inj heads) ampersand

/-! ## Rendering -/

/-- What the output is composed of: a text node of the templates, or an escaped text. -/
def Piece (Text : Bytes → Prop) (piece : Bytes) : Prop :=
  Text piece ∨ ∃ text, escape text = .ok piece

namespace Session

section Levels

variable {Text : Bytes → Prop} {engine : Engine} {deeper : Level} {file : Template} {data : Data}

/-- Every section was composed of pieces when it was stored. -/
def Safe (Text : Bytes → Prop) (sections : Sections) : Prop :=
  ∀ name body, sections.lookup name = some body → Composed (Piece Text) body

/-- What a rendered list of nodes leaves. -/
def Clean (Text : Bytes → Prop) (result : Bytes × Sections) : Prop :=
  Composed (Piece Text) result.1 ∧ Safe Text result.2

/-- The nodes have no raw interpolation, and their text is one of the templates'. -/
structure Plain (Text : Bytes → Prop) (nodes : List Node) : Prop where
  texts : ∀ text ∈ nodeTexts nodes, Text text
  rawFree : rawFreeNodes nodes = true

/-- A level whose results are composed of pieces. -/
structure Sound (Text : Bytes → Prop) (level : Level) : Prop where
  nodes : ∀ {file nodes data sections}, Plain Text nodes → Safe Text sections →
    Ensures (level.nodes file nodes data sections) (Clean Text)
  render : ∀ {name data current sections}, Safe Text sections →
    Ensures (level.render name data current sections) (Clean Text)

/-- The local variables of `nodes` between two nodes. -/
def Progress.Clean (Text : Bytes → Prop) (progress : Progress) : Prop :=
  Composed (Piece Text) progress.output ∧ Safe Text progress.sections

theorem safe_empty : Safe Text ∅ := by
  intro name body found
  cases found

variable {sections : Sections}

theorem Safe.insert (safe : Safe Text sections) {name body : Bytes}
    (composed : Composed (Piece Text) body) : Safe Text (sections.insert name body) := by
  intro other stored found
  by_cases same : other = name
  · subst same
    rw [AList.lookup_insert] at found
    cases found
    exact composed
  · rw [AList.lookup_insert_ne same] at found
    exact safe other stored found

theorem ensures_append {output value : Bytes} (composed : Composed (Piece Text) output)
    (piece : Composed (Piece Text) value) :
    Ensures (append output value) (Composed (Piece Text)) := by
  intro session result after done
  unfold append at done
  split at done
  · cases done
  · cases done
    exact composed.append piece

variable {progress : Progress}

theorem ensures_output (clean : progress.Clean Text) {value : Bytes}
    (piece : Composed (Piece Text) value) :
    Ensures (do
      let output ← append progress.output value
      return { progress with output }) (Progress.Clean Text) :=
  .bind (ensures_append clean.1 piece) fun _ composed => .pure ⟨composed, clean.2⟩

theorem ensures_escapedText {expression : Expression} :
    Ensures (escapedText engine file data expression) (Composed (Piece Text)) :=
  .after fun text => .lift fun _ done => .single (.inr ⟨text, done⟩)

variable {location : Location}

theorem ensures_guarded {α : Type} {missing invalid : String} {body : Rendering α} {Post : α → Prop}
    (ensured : Ensures body Post) : Ensures (guarded file location missing invalid body) Post := by
  refine .tryCatch ensured fun raised => ?_
  cases raised with
  | syntaxError error => exact .ite (fun _ => .raise _) fun _ => .raise _
  | notFound name => exact .raise _
  | invalidPath name => exact .raise _
  | failure what => exact .raise _
  | stopped => exact .raise _

theorem Plain.single {nodes : List Node} (plain : Plain Text nodes) {node : Node}
    (member : node ∈ nodes) : Plain Text [node] := by
  constructor
  · intro text inside
    rw [nodeTexts, nodeTexts, append_nil] at inside
    exact plain.texts text (nodeTexts_of_mem member inside)
  · rw [rawFreeNodes_iff]
    intro other same
    rw [mem_singleton.mp same]
    exact rawFreeNodes_iff.mp plain.rawFree node member

theorem ensures_yieldNode {name : Expression} {value : Option Expression}
    (clean : progress.Clean Text) :
    Ensures (yieldNode engine file data name value progress) (Progress.Clean Text) := by
  refine .after fun name => ?_
  cases found : progress.sections.lookup name with
  | some body => exact ensures_output clean (clean.2 name body found)
  | none =>
    cases value with
    | some expression =>
      exact .bind ensures_escapedText fun _ composed => ensures_output clean composed
    | none => exact .pure clean

section

variable (sound : Sound Text deeper)
include sound

theorem ensures_nested {nodes : List Node} (plain : Plain Text nodes)
    (clean : progress.Clean Text) :
    Ensures (nested deeper file data nodes progress) (Progress.Clean Text) :=
  .bind (sound.nodes plain clean.2) fun _ rendered =>
    .bind (ensures_append clean.1 rendered.1) fun _ composed => .pure ⟨composed, rendered.2⟩

theorem ensures_branches {expressions : List (Option Expression)} {alternatives : List (List Node)}
    (plain : ∀ branch ∈ alternatives, Plain Text branch) (clean : progress.Clean Text) :
    Ensures (branches engine deeper file data expressions alternatives progress)
      (Progress.Clean Text) := by
  induction alternatives generalizing expressions with
  | nil => rcases expressions with _ | ⟨_ | expression, expressions⟩ <;> exact .pure clean
  | cons branch rest ih =>
    have chosen : Ensures (nested deeper file data branch progress) (Progress.Clean Text) :=
      ensures_nested sound (plain branch mem_cons_self) clean
    rcases expressions with _ | ⟨_ | expression, expressions⟩
    · exact .pure clean
    · exact chosen
    · refine .after fun value => .ite (fun _ => chosen) fun _ => ?_
      exact ih (forall_mem_cons.mp plain).2

theorem ensures_loopNode {collection : Expression}
    {key variableName : Bytes} {children otherwise : List Node} (plain : Plain Text children)
    (plainOtherwise : Plain Text otherwise) (clean : progress.Clean Text) :
    Ensures (loopNode engine deeper file data location collection key variableName children
      otherwise progress) (Progress.Clean Text) := by
  refine .after fun value => .checked fun _ => .checked fun _ => .ite (fun _ => ?_) fun _ => ?_
  · exact ensures_nested sound plainOtherwise clean
  · refine .foldlM clean fun reached item _ kept => .after fun _ => ?_
    exact ensures_nested sound plain kept

theorem ensures_includeNode {name : Expression}
    {props : Option Expression} (clean : progress.Clean Text) :
    Ensures (includeNode engine deeper file data location name props progress)
      (Progress.Clean Text) :=
  .after fun _ => .after fun _ => .bind (sound.render clean.2) fun _ rendered =>
    ensures_output clean rendered.1

theorem ensures_sectionNode {name : Expression} {value : Option Expression} {children : List Node}
    (plain : Plain Text children) (clean : progress.Clean Text) :
    Ensures (sectionNode engine deeper file data location name value children progress)
      (Progress.Clean Text) := by
  refine .after fun name => .checked fun _ => .checked fun _ =>
    .ite (fun _ => .pure clean) fun _ => ?_
  cases value with
  | some expression =>
    exact .bind ensures_escapedText fun body composed =>
      .pure ⟨clean.1, clean.2.insert composed⟩
  | none =>
    refine .bind (sound.nodes plain clean.2) fun result rendered => .pure ⟨clean.1, ?_⟩
    split
    · exact rendered.2
    · exact rendered.2.insert rendered.1

/-- One node of a template without raw interpolations. -/
theorem ensures_nodeBody {node : Node} (plain : Plain Text [node]) (clean : progress.Clean Text) :
    Ensures (nodeBody engine deeper file data progress node) (Progress.Clean Text) := by
  obtain ⟨texts, rawFree⟩ := plain
  simp only [nodeTexts, append_nil] at texts
  simp only [rawFreeNodes, Bool.and_true] at rawFree
  cases node with
  | text location text =>
    exact ensures_output clean (.single (.inl (texts text (by simp [Node.texts]))))
  | escaped location expression =>
    exact .bind ensures_escapedText fun _ composed => ensures_output clean composed
  | raw location expression => cases rawFree
  | condition location expressions alternatives =>
    rw [Node.rawFree, rawFreeBranches_iff] at rawFree
    refine ensures_branches sound (fun branch member => ⟨fun text inside => ?_, ?_⟩) clean
    · exact texts text (by rw [Node.texts]; exact branchTexts_of_mem member inside)
    · exact rawFree branch member
  | loop location collection key variableName children otherwise =>
    rw [Node.rawFree, Bool.and_eq_true] at rawFree
    exact ensures_loopNode sound
      ⟨fun text inside => texts text (mem_append_left _ inside), rawFree.1⟩
      ⟨fun text inside => texts text (mem_append_right _ inside), rawFree.2⟩ clean
  | includeFile location name props => exact ensures_includeNode sound clean
  | sectionBody location name value children =>
    exact ensures_sectionNode sound ⟨texts, rawFree⟩ clean
  | yieldSection location name value => exact ensures_yieldNode clean
  | extendsLayout location layout => exact .pure clean

theorem ensures_nodesWithin {nodes : List Node}
    (plain : Plain Text nodes) (safe : Safe Text sections) :
    Ensures (nodesWithin engine deeper file nodes data sections) (Clean Text) := by
  have start : Progress.Clean Text ⟨[], sections, []⟩ := ⟨.nil, safe⟩
  refine .bind (.foldlM start fun progress node member clean => ?_) fun _ clean => .pure clean
  exact .after fun _ => ensures_guarded (ensures_nodeBody sound (plain.single member) clean)

theorem ensures_spear
    {nodes : List Node → Data → Sections → Rendering (Bytes × Sections)}
    (rendered : ∀ {data sections}, Safe Text sections →
      Ensures (nodes file.nodes data sections) (Clean Text)) (safe : Safe Text sections) :
    Ensures (spear engine deeper file nodes data sections) (Clean Text) := by
  refine .bind (rendered safe) fun result clean => ?_
  cases layoutOf file.nodes with
  | none => exact .pure clean
  | some layout => exact ensures_guarded (.after fun _ => sound.render clean.2)

end

/-- All templates of the engine are Spear templates whose nodes are plain. -/
def TemplatesPlain (engine : Engine) (Text : Bytes → Prop) : Prop :=
  ∀ name file, engine.load name = .ok file → file.spear = true ∧ Session.Plain Text file.nodes

theorem ensures_renderWithin (templates : TemplatesPlain engine Text) (sound : Sound Text deeper)
    {depth : Nat} {name : Bytes} {current : Option Value} (safe : Safe Text sections) :
    Ensures (renderWithin engine deeper depth name data current sections) (Clean Text) := by
  refine .after fun _ => .bind (.lift fun file loaded => templates name file loaded) ?_
  rintro file ⟨spear, plain⟩
  refine .after fun session => .checked fun _ => .after fun _ => .ite (fun legacy => ?_) fun _ => ?_
  · rw [spear] at legacy
    cases legacy
  · refine .bind ?_ fun result clean => .after fun _ => .pure clean
    exact ensures_spear sound (fun safe => ensures_nodesWithin sound plain safe) safe

theorem sound_level (templates : TemplatesPlain engine Text) (left : Nat) :
    Sound Text (level engine left) := by
  induction left with
  | zero => exact ⟨fun _ _ => .raise _, fun _ => .raise _⟩
  | succ left ih =>
    exact ⟨fun plain safe => ensures_nodesWithin ih plain safe,
      fun safe => ensures_renderWithin templates ih safe⟩

end Levels

end Session

/-! ## Parsing -/

theorem rawFreeNodes_concat {nodes : List Node} (free : rawFreeNodes nodes = true) {node : Node}
    (last : node.rawFree = true) : rawFreeNodes (nodes ++ [node]) = true := by
  rw [rawFreeNodes_iff] at free ⊢
  exact forall_mem_append.mpr ⟨free, by simpa using last⟩

namespace Parser

/-- The nodes that a sequence has so far. -/
def Sequence.RawFree (sequence : Sequence) : Prop := rawFreeNodes sequence.nodes = true

def Round.RawFree : Round → Prop
  | .ended sequence => sequence.RawFree
  | .continued sequence => sequence.RawFree

/-- Blocks without raw interpolations. -/
def ReadsRawFree (block : BlockReader) : Prop :=
  ∀ stops depth, Ensures (block stops depth) fun nodes => rawFreeNodes nodes = true

section Rounds

variable {parser : Parser} {block : BlockReader} {stops : List String} {depth : Nat}
  {sequence : Sequence} {name : Bytes}

theorem ensures_elseIfs (reads : ReadsRawFree block) (fuel : Nat) :
    Ensures (parser.elseIfs block depth fuel) fun read => rawFreeBranches read.2 = true := by
  induction fuel with
  | zero => exact .raise _
  | succ fuel ih =>
    refine .after fun name => .ite (fun _ => ?_) fun _ => .pure rfl
    refine .after fun _ => .bind (reads _ _) fun branch branchFree => ?_
    refine .bind ih fun read restFree => .pure ?_
    rw [rawFreeBranches, branchFree, restFree]
    rfl

theorem rawFreeBranches_append {first second : List (List Node)}
    (free : rawFreeBranches first = true) (others : rawFreeBranches second = true) :
    rawFreeBranches (first ++ second) = true := by
  rw [rawFreeBranches_iff] at free others ⊢
  exact forall_mem_append.mpr ⟨free, others⟩

variable (reads : ReadsRawFree block) (free : sequence.RawFree)
include free

theorem ensures_flush : Ensures (parser.flush depth sequence) Sequence.RawFree :=
  .ite (fun _ => .pure free) fun _ => .after fun _ => .pure (rawFreeNodes_concat free rfl)

theorem ensures_push {node : Node} (nodeFree : node.rawFree = true) :
    Ensures (parser.push depth sequence node) Sequence.RawFree :=
  .bind (ensures_flush free) fun _ flushed => .after fun _ =>
    .pure (rawFreeNodes_concat flushed nodeFree)

theorem ensures_pushed {node : Node} (nodeFree : node.rawFree = true) :
    Ensures (Round.continued <$> parser.push depth sequence node) Round.RawFree := by
  rw [map_eq_pure_bind]
  exact .bind (ensures_push free nodeFree) fun _ pushed => .pure pushed

theorem ensures_comment : Ensures (parser.comment depth sequence) Round.RawFree := by
  refine .after fun start => .bind (ensures_flush free) fun flushed kept => ?_
  cases parser.find "--\x7d\x7d" (start + 4) with
  | none => exact .raise _
  | some found => exact .after fun _ => .pure kept

theorem ensures_escapedInterpolation :
    Ensures (parser.escapedInterpolation sequence) Round.RawFree := by
  refine .after fun start => ?_
  cases parser.find "\x7d\x7d" (start + 3) with
  | none => exact .raise _
  | some found => exact .after fun _ => .pure free

theorem ensures_interpolation : Ensures (parser.interpolation false depth sequence) Round.RawFree :=
  .after fun _ => .bind (ensures_flush free) fun _ flushed => .after fun _ => .after fun _ =>
    .after fun _ => .after fun _ => ensures_pushed flushed rfl

theorem ensures_verbatim : Ensures (parser.verbatim name sequence) Round.RawFree := by
  refine .after fun start => .after fun _ => .after fun body => ?_
  cases parser.find "@endverbatim" body with
  | none => exact .raise _
  | some found => exact .after fun _ => .pure free

theorem ensures_character : Ensures (parser.character sequence) Round.RawFree :=
  .after fun _ => .after fun _ => .pure free

theorem ensures_otherWord : Ensures (parser.otherWord name sequence) Round.RawFree :=
  .after fun _ => .checked fun _ => ensures_character free

theorem ensures_finish :
    Ensures (parser.finish stops depth sequence) fun nodes => rawFreeNodes nodes = true := by
  refine .bind (ensures_flush free) fun flushed kept => .ite (fun _ => ?_) fun _ => .pure kept
  exact .after fun _ => .after fun _ => .pure kept

include reads

theorem ensures_conditionBlock :
    Ensures (parser.conditionBlock block name depth sequence) Round.RawFree := by
  refine .after fun start => .bind (ensures_flush free) fun flushed kept => .after fun _ => ?_
  refine .after fun argument => .bind (reads _ _) fun branch branchFree => ?_
  refine .bind (ensures_elseIfs reads _) fun more moreFree => .after fun word => ?_
  have finishes : ∀ last : List (Option Expression) × List (List Node),
      rawFreeBranches last.2 = true →
      Ensures (do
        parser.close (if name = ascii "if" then "endif" else "endunless")
        Round.continued <$> parser.push depth flushed (.condition (parser.file.location start)
          (some (if name = ascii "unless" then
            Expression.unary (parser.file.location start) (ascii "!") argument else argument) ::
            (more.1 ++ last.1))
          (branch :: (more.2 ++ last.2)))) Round.RawFree := by
    refine fun last lastFree => .after fun _ => ensures_pushed kept ?_
    rw [Node.rawFree, rawFreeBranches, branchFree, rawFreeBranches_append moreFree lastFree]
    rfl
  refine .ite (fun _ => .after fun _ => ?_) fun _ => .bind (.pure ?_) finishes
  · refine .bind (reads _ _) fun last lastFree => .bind (.pure ?_) finishes
    rw [rawFreeBranches, lastFree]
    rfl
  · rfl

theorem ensures_loopBlock : Ensures (parser.loopBlock block name depth sequence) Round.RawFree := by
  refine .after fun start => .bind (ensures_flush free) fun flushed kept => .after fun _ => ?_
  refine .after fun range => .after fun read => .bind (reads _ _) fun children childrenFree => ?_
  have finishes : ∀ otherwise, rawFreeNodes otherwise = true →
      Ensures (do
        parser.close (if name = ascii "foreach" then "endforeach" else "endforelse")
        Round.continued <$> parser.push depth flushed (.loop (parser.file.location start) read.1
          read.2.1 read.2.2 children otherwise)) Round.RawFree := by
    refine fun otherwise otherwiseFree => .after fun _ => ensures_pushed kept ?_
    rw [Node.rawFree, childrenFree, otherwiseFree]
    rfl
  refine .after fun word => .ite (fun _ => .after fun _ => ?_) fun _ => .bind (.pure ?_) finishes
  · exact .bind (reads _ _) finishes
  · rfl

theorem ensures_composition :
    Ensures (parser.composition block name depth sequence) Round.RawFree := by
  refine .after fun start => .bind (ensures_flush free) fun flushed kept => .after fun _ => ?_
  refine .ite (fun _ => ?_) fun _ => .after fun arguments => ?_
  · exact .after fun _ => .checked fun _ => ensures_pushed kept rfl
  · refine .ite (fun _ => ensures_pushed kept rfl) fun _ => ?_
    refine .ite (fun _ => ensures_pushed kept rfl) fun _ => .checked fun _ => ?_
    refine .ite (fun _ => ?_) fun _ => ensures_pushed kept rfl
    exact .bind (reads _ _) fun children childrenFree => .after fun _ =>
      ensures_pushed kept childrenFree

theorem ensures_directiveRound :
    Ensures (parser.directiveRound block stops name depth sequence) Round.RawFree := by
  refine .after fun start => .ite (fun _ => ?_) fun _ => ?_
  · rw [map_eq_pure_bind]
    exact .bind (ensures_flush free) fun _ flushed => .pure flushed
  refine .ite (fun _ => .raise _) fun _ => ?_
  refine .ite (fun _ => ensures_verbatim free) fun _ => ?_
  refine .ite (fun _ => ensures_conditionBlock reads free) fun _ => ?_
  refine .ite (fun _ => ensures_loopBlock reads free) fun _ => ?_
  exact .ite (fun _ => ensures_composition reads free) fun _ => ensures_otherWord free

/-- A round on a rest of the template that opens no raw interpolation. -/
theorem ensures_round {rest : Bytes} (closed : ¬ (ascii "\x7b!!").isPrefixOf rest = true) :
    Ensures (parser.round block stops depth rest sequence) Round.RawFree := by
  refine .ite (fun _ => ensures_comment free) fun _ => ?_
  refine .ite (fun _ => .after fun _ => .pure free) fun _ => ?_
  refine .ite (fun _ => ensures_escapedInterpolation free) fun _ => ?_
  refine .ite (fun opened => absurd opened closed) fun _ => ?_
  refine .ite (fun _ => ensures_interpolation free) fun _ => ?_
  exact .ite (fun _ => ensures_directiveRound reads free) fun _ => ensures_character free

end Rounds

theorem not_opened {parser : Parser} (closed : ¬ ascii "\x7b!!" <:+: parser.source) (offset : Nat) :
    ¬ (ascii "\x7b!!").isPrefixOf (parser.source.drop offset) = true := by
  intro opened
  have start := isPrefixOf_iff_prefix.mp opened
  exact closed (start.isInfix.trans (drop_suffix offset parser.source).isInfix)

theorem ensures_sequence {parser : Parser} (closed : ¬ ascii "\x7b!!" <:+: parser.source)
    (fuel : Nat) :
    ReadsRawFree (parser.sequence fuel) ∧
      ∀ stops depth (state : Sequence), state.RawFree →
        Ensures (parser.sequenceLoop fuel stops depth state) fun nodes =>
          rawFreeNodes nodes = true := by
  induction fuel with
  | zero => exact ⟨fun _ _ => .raise _, fun _ _ _ _ => .raise _⟩
  | succ fuel ih =>
    obtain ⟨reads, loops⟩ := ih
    constructor
    · intro stops depth
      refine .ite (fun _ => ?_) fun _ => ?_
      · exact .after fun _ => .after fun _ => .after fun start => loops _ _ _ rfl
      · exact .after fun start => loops _ _ _ rfl
    · intro stops depth state free
      have drops : Ensures parser.remaining fun rest => ∃ offset, rest = parser.source.drop offset := by
        intro before rest after done
        cases done
        exact ⟨before.position, rfl⟩
      refine .bind drops fun rest cut => .ite (fun _ => ensures_finish free) fun _ => ?_
      obtain ⟨offset, rfl⟩ := cut
      refine .bind (ensures_round reads free (not_opened closed offset)) fun round kept => ?_
      cases round with
      | ended last => exact .pure kept
      | continued next => exact loops _ _ _ kept

theorem checkLayout_ok {parser : Parser} {nodes result : List Node}
    (checked : parser.checkLayout nodes = .ok result) : result = nodes := by
  unfold checkLayout at checked
  split at checked
  · cases checked
    rfl
  · split at checked
    · cases checked
    · cases checked
      rfl
  · cases checked

end Parser

/-- Only a text that opens a raw interpolation compiles to a template with one. -/
theorem rawFree_compile {numerals : Numerals} {name : Bytes} {file : Template}
    (closed : ¬ ascii "\x7b!!" <:+: source)
    (compiled : compile numerals name source true = .ok file) : rawFreeNodes file.nodes = true := by
  unfold compile at compiled
  split at compiled
  · cases compiled
  · obtain ⟨nodes, parsed, compiled⟩ := bind_eq_ok.mp compiled
    cases compiled
    obtain ⟨read, sequenced, checked⟩ := bind_eq_ok.mp parsed
    rw [Parser.checkLayout_ok checked]
    let parser : Parser := ⟨Syntax.create name source, source, numerals⟩
    have closedParser : ¬ ascii "\x7b!!" <:+: parser.source := closed
    exact (Parser.ensures_sequence closedParser _).1 _ _ _ _ _ sequenced

/-! ## The output of an engine -/

/-- The text nodes of an engine's templates. -/
def Engine.HasText (engine : Engine) (text : Bytes) : Prop :=
  ∃ name file, engine.load name = .ok file ∧ text ∈ nodeTexts file.nodes

/-- An engine whose templates are Spear templates without raw interpolations. -/
structure Engine.Escapes (engine : Engine) : Prop where
  spear : ∀ {name file}, engine.load name = .ok file → file.spear = true
  rawFree : ∀ {name file}, engine.load name = .ok file → rawFreeNodes file.nodes = true

variable {engine : Engine}

theorem Engine.Escapes.plain (escapes : engine.Escapes) {Text : Bytes → Prop}
    (texts : ∀ text, engine.HasText text → Text text) : Session.TemplatesPlain engine Text :=
  fun name file loaded => ⟨escapes.spear loaded,
    fun text inside => texts text ⟨name, file, loaded, inside⟩, escapes.rawFree loaded⟩

/-- An engine that resolves names to Spear files which open no raw interpolation. -/
theorem Engine.escapes_of_files
    (closed : ∀ {name file}, engine.files name = .ok file →
      file.spear = true ∧ ¬ ascii "\x7b!!" <:+: file.source) : engine.Escapes := by
  have compiled : ∀ {name file}, engine.load name = .ok file →
      ∃ source : SourceFile, ¬ ascii "\x7b!!" <:+: source.source ∧
        compile engine.numerals source.key source.source true = .ok file := by
    intro name file loaded
    obtain ⟨source, found, compiled⟩ := bind_eq_ok.mp loaded
    obtain ⟨spear, free⟩ := closed found
    rw [spear] at compiled
    exact ⟨source, free, compiled⟩
  constructor
  · intro name file loaded
    obtain ⟨source, _, done⟩ := compiled loaded
    unfold compile at done
    split at done
    · cases done
    · obtain ⟨nodes, _, done⟩ := bind_eq_ok.mp done
      cases done
      rfl
  · intro name file loaded
    obtain ⟨source, free, done⟩ := compiled loaded
    exact rawFree_compile free done

theorem composed_render (escapes : engine.Escapes) {name : Bytes} {data : Data} {output : Bytes}
    (done : engine.render name data = .ok output) : Composed (Piece engine.HasText) output := by
  have sound := Session.sound_level (escapes.plain fun _ => id) 65
  unfold Engine.render at done
  cases rendered : (Session.level engine 65).render name data none ∅ Session.initial with
  | error raised =>
    rw [rendered] at done
    cases done
  | ok result =>
    rw [rendered] at done
    cases done
    exact (sound.render Session.safe_empty _ _ _ rendered).1

theorem composed_renderSpearText (escapes : engine.Escapes) {name : Bytes} {data : Data}
    {file : Template} {output : Bytes}
    (compiled : compile engine.numerals name source true = .ok file)
    (rawFree : rawFreeNodes file.nodes = true)
    (done : engine.renderSpearText source data name = .ok output) :
    Composed (Piece fun text => text ∈ nodeTexts file.nodes ∨ engine.HasText text) output := by
  let Text : Bytes → Prop := fun text => text ∈ nodeTexts file.nodes ∨ engine.HasText text
  have templates : Session.TemplatesPlain engine Text := escapes.plain fun _ => .inr
  have plain : Session.Plain Text file.nodes := ⟨fun _ => .inl, rawFree⟩
  obtain ⟨other, again, done⟩ := bind_eq_ok.mp done
  cases again.symm.trans compiled
  obtain ⟨result, rendered, done⟩ := bind_eq_ok.mp done
  cases done
  have clean : Ensures (Session.spear engine (Session.level engine 64) file
      ((Session.level engine 65).nodes file) data ∅) (Session.Clean Text) :=
    Session.ensures_spear (Session.sound_level templates 64)
      (fun safe => (Session.sound_level templates 65).nodes plain safe) Session.safe_empty
  exact (clean _ _ _ rendered).1

/-- Without raw interpolations every output is composed of text nodes of the templates and of
escaped texts, and an escaped text has no markup characters and determines its source. -/
theorem spear_auto_escaping (engine : Engine) (escapes : engine.Escapes) :
    (∀ name data output, engine.render name data = .ok output →
      Composed (Piece engine.HasText) output) ∧
    (∀ source data name file output, compile engine.numerals name source true = .ok file →
      rawFreeNodes file.nodes = true → engine.renderSpearText source data name = .ok output →
      Composed (Piece fun text => text ∈ nodeTexts file.nodes ∨ engine.HasText text) output) ∧
    (∀ name source file, ¬ ascii "\x7b!!" <:+: source →
      compile engine.numerals name source true = .ok file → rawFreeNodes file.nodes = true) ∧
    (∀ text escaped, escape text = .ok escaped →
      (∀ c ∈ escaped, c ≠ 60 ∧ c ≠ 62 ∧ c ≠ 34 ∧ c ≠ 39) ∧
      (∀ before after, escaped = before ++ 38 :: after →
        ∃ entity ∈ entities, entity <+: 38 :: after) ∧
      ∀ other, escape other = .ok escaped → text = other) := by
  refine ⟨fun name data output => composed_render escapes,
    fun source data name file output => composed_renderSpearText escapes,
    fun name source file => rawFree_compile, fun text escaped done => ⟨?_, ?_, ?_⟩⟩
  · intro c member
    exact ⟨fun less => not_mem_escape done (.inl less) member,
      fun greater => not_mem_escape done (.inr (.inl greater)) member,
      fun double => not_mem_escape done (.inr (.inr (.inl double))) member,
      fun quote => not_mem_escape done (.inr (.inr (.inr quote))) member⟩
  · exact fun before after => ampersand_escape done
  · exact fun other => escape_injective done

def sampleLayout : Bytes := ascii "<p>@yield('body')</p>"

def samplePage : Bytes :=
  ascii "@extends('layout')@section('body')<b>\x7b\x7b name \x7d\x7d</b>@endsection"

/-- A layout and a page. -/
def sampleEngine : Engine where
  numerals := sampleNumerals
  files := fun name =>
    if name = ascii "layout" then .ok ⟨name, sampleLayout, true⟩
    else if name = ascii "page" then .ok ⟨name, samplePage, true⟩
    else .error (.notFound name)
  helpers := fun _ => none
  renderLegacy := fun _ _ _ _ _ => throw .stopped

theorem sampleEngine_escapes : sampleEngine.Escapes := by
  have layout : ¬ ascii "\x7b!!" <:+: sampleLayout := by decide
  have page : ¬ ascii "\x7b!!" <:+: samplePage := by decide
  refine Engine.escapes_of_files fun {name file} found => ?_
  unfold sampleEngine at found
  dsimp only at found
  split at found
  · cases found
    exact ⟨rfl, layout⟩
  · split at found
    · cases found
      exact ⟨rfl, page⟩
    · cases found

def sampleOutput : Bytes := ascii "<p><b>&lt;i&gt;</b></p>"

theorem sampleEngine_render :
    sampleEngine.render (ascii "page") (Data.put ∅ (ascii "name") (.string (ascii "<i>"))) =
      .ok sampleOutput := by
  decide +kernel

theorem spear_auto_escaping_sample :
    sampleEngine.Escapes ∧ Composed (Piece sampleEngine.HasText) sampleOutput :=
  ⟨sampleEngine_escapes,
    (spear_auto_escaping sampleEngine sampleEngine_escapes).1 _ _ _ sampleEngine_render⟩

end Gungnir.View
