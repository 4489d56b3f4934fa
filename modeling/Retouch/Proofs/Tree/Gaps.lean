import Retouch.Proofs.Tree.Slices

/-!
# What edits of nodes keep

Nodes that stand one after another in a source leave gaps: the slices in front of them, between
them and behind them (`Text.gaps?`).  The source is the texts of the nodes in these gaps.
**Edits of the nodes put other texts into the same gaps** (`Text.spliced_eq_filled`), however many
nodes there are, and whether or not a gap is empty or runs over several lines.
-/

set_option autoImplicit false

namespace Retouch

open Text

namespace Text

variable {source : Text} {start : Nat} {nodes : List Node} {gaps : List Text}

/-- The slices of a source between nodes, from a byte offset to the end. -/
def gaps? (source : Text) : (start : Nat) → List Node → Option (List Text)
  | start, [] => do
    let rest ← source.slice? start source.byteLength
    return [rest]
  | start, node :: later => do
    let gap ← source.slice? start node.label.start
    let gaps ← gaps? source node.label.stop later
    return gap :: gaps

/-- Texts in gaps, one after each gap but the last. -/
def filled : List Text → List Text → Text
  | gap :: gaps, text :: texts => gap ++ text ++ filled gaps texts
  | gaps, _ => gaps.flatten

theorem gaps?_nil_eq_some_iff : source.gaps? start [] = some gaps ↔
    ∃ rest, source.slice? start source.byteLength = some rest ∧ gaps = [rest] := by
  rw [gaps?]
  cases source.slice? start source.byteLength <;> simp [eq_comm]

theorem gaps?_cons_eq_some_iff {node : Node} : source.gaps? start (node :: nodes) = some gaps ↔
    ∃ gap later, source.slice? start node.label.start = some gap ∧
      source.gaps? node.label.stop nodes = some later ∧ gaps = gap :: later := by
  rw [gaps?]
  cases source.slice? start node.label.start <;> cases source.gaps? node.label.stop nodes <;>
    simp [eq_comm]

theorem isBoundary_byteLength (source : Text) : source.IsBoundary source.byteLength :=
  ⟨source, List.prefix_rfl, rfl⟩

/-- Nodes in order leave gaps. -/
theorem exists_gaps (regular : ∀ node ∈ nodes, node.IsRegular source)
    (inOrder : nodes.Pairwise fun first second => first.label.stop ≤ second.label.start)
    (boundary : source.IsBoundary start) (before : ∀ node ∈ nodes, start ≤ node.label.start) :
    ∃ gaps, source.gaps? start nodes = some gaps := by
  induction nodes generalizing start with
  | nil =>
    obtain ⟨text, begins, rfl⟩ := boundary
    obtain ⟨rest, sliced⟩ := IsBoundary.exists_slice? ⟨text, begins, rfl⟩
      (isBoundary_byteLength source) ((byteLength_le_iff begins List.prefix_rfl).2
        begins.length_le)
    exact ⟨[rest], gaps?_nil_eq_some_iff.2 ⟨rest, sliced, rfl⟩⟩
  | cons node later ih =>
    have here := regular node List.mem_cons_self
    obtain ⟨inFront, inOrder⟩ := List.pairwise_cons.1 inOrder
    obtain ⟨gap, sliced⟩ := boundary.exists_slice? here.spans.start (before node List.mem_cons_self)
    obtain ⟨gaps, found⟩ := ih (fun other member => regular other (List.mem_cons_of_mem _ member))
      inOrder here.spans.stop inFront
    exact ⟨gap :: gaps, gaps?_cons_eq_some_iff.2 ⟨gap, gaps, sliced, found, rfl⟩⟩

/-- From an offset on a source is the texts of the nodes in their gaps. -/
theorem slice?_eq_filled (regular : ∀ node ∈ nodes, node.IsRegular source)
    (found : source.gaps? start nodes = some gaps) :
    source.slice? start source.byteLength = some (filled gaps (nodes.map (·.textIn source))) := by
  induction nodes generalizing start gaps with
  | nil =>
    obtain ⟨rest, sliced, rfl⟩ := gaps?_nil_eq_some_iff.1 found
    simpa [filled] using sliced
  | cons node later ih =>
    obtain ⟨gap, gaps, sliced, onward, rfl⟩ := gaps?_cons_eq_some_iff.1 found
    have here := regular node List.mem_cons_self
    have rest := ih (fun other member => regular other (List.mem_cons_of_mem _ member)) onward
    exact slice?_append_slice? (slice?_append_slice? sliced here.slice?_eq) rest

theorem eq_filled (regular : ∀ node ∈ nodes, node.IsRegular source)
    (found : source.gaps? 0 nodes = some gaps) :
    source = filled gaps (nodes.map (·.textIn source)) := by
  obtain ⟨after, same, bytes⟩ := exists_append_of_slice?_zero (slice?_eq_filled regular found)
  exact (eq_of_byteLength_eq ⟨after, same.symm⟩ List.prefix_rfl bytes).symm

section Edits

variable {changes : List (Node × Text)}

/-- The edits that put codes in the places of nodes. -/
def editsOf (source : Text) (changes : List (Node × Text)) : List Edit :=
  changes.map fun change => ⟨change.2, change.1.rangeIn source⟩

/-- From an offset on the edits put their codes into the gaps. -/
theorem splicedFrom_eq_filled (regular : ∀ change ∈ changes, change.1.IsRegular source)
    (word : start < 2 ^ 32) (found : source.gaps? start (changes.map Prod.fst) = some gaps) :
    source.splicedFrom (source.offsetOf (Node.place source start)) (source.editsOf changes) =
      filled gaps (changes.map Prod.snd) := by
  induction changes generalizing start gaps with
  | nil =>
    obtain ⟨rest, sliced, rfl⟩ := gaps?_nil_eq_some_iff.1 found
    obtain ⟨before, after, same, rfl, whole⟩ := slice?_eq_some_iff.1 sliced
    obtain rfl : before ++ rest = source :=
      eq_of_byteLength_eq ⟨after, same.symm⟩ List.prefix_rfl whole
    rw [editsOf, List.map_nil, splicedFrom_place_nil rfl word]
    simp [filled]
  | cons change later ih =>
    obtain ⟨gap, gaps, sliced, onward, rfl⟩ := gaps?_cons_eq_some_iff.1 found
    have here := regular change List.mem_cons_self
    have rest := ih (fun other member => regular other (List.mem_cons_of_mem _ member))
      here.word onward
    rw [editsOf, List.map_cons, splicedFrom_rangeIn here sliced]
    exact congrArg (gap ++ change.2 ++ ·) rest

/-- **Edits of nodes in order put their codes into the gaps** of the whole source. -/
theorem spliced_eq_filled (regular : ∀ change ∈ changes, change.1.IsRegular source)
    (inOrder : changes.Pairwise fun first second => first.1.label.stop ≤ second.1.label.start)
    (found : source.gaps? 0 (changes.map Prod.fst) = some gaps) :
    source.spliced ((source.editsOf changes).mergeSort Edit.comesBefore) =
      filled gaps (changes.map Prod.snd) := by
  have sorted : (source.editsOf changes).Pairwise fun edit other =>
      Edit.comesBefore edit other = true := by
    refine List.pairwise_map.2 (inOrder.imp_of_mem fun member member' ordered => ?_)
    exact (regular _ member).comesBefore (regular _ member') ordered _ _
  have first : source.offsetOf (Node.place source 0) = 0 :=
    @offsetOf_place source [] List.nil_prefix (Nat.two_pow_pos 32)
  have whole := splicedFrom_eq_filled regular (Nat.two_pow_pos 32) found
  rw [first] at whole
  rw [List.mergeSort_of_pairwise sorted]
  exact whole

end Edits
end Text

namespace Node.IsRegular

variable {source : Text} {node : Node}

section Parts

variable {before text after : Text} (regular : node.IsRegular source)
  (same : source = before ++ text ++ after) (start : byteLength before = node.label.start)
  (stop : byteLength (before ++ text) = node.label.stop)

include regular same start stop

/-- What stands in front of a node, and what stands up to its end, reach the ends of its range. -/
theorem reach_eq : reach before = (node.rangeIn source).start ∧
    reach (before ++ text) = (node.rangeIn source).stop := by
  obtain ⟨_, range⟩ := regular.rangeIn_eq
  have begins : before <+: source := ⟨text ++ after, by rw [same, List.append_assoc]⟩
  rw [range, ← place_byteLength begins, ← place_byteLength ⟨after, same.symm⟩, start, stop]
  exact ⟨rfl, rfl⟩

/-- **An edit of a node keeps the parts around it.** -/
theorem spliced_rangeIn (code : Text) :
    source.spliced [⟨code, node.rangeIn source⟩] = before ++ code ++ after := by
  have sliced : source.slice? 0 node.label.start = some before :=
    slice?_eq_some_iff.2 ⟨[], text ++ after, by simpa using same, rfl, by simpa using start⟩
  have first : source.offsetOf (Node.place source 0) = 0 :=
    @offsetOf_place source [] List.nil_prefix (Nat.two_pow_pos 32)
  have word : byteLength (before ++ text) < 2 ^ 32 := stop ▸ regular.word
  rw [spliced, ← first, splicedFrom_rangeIn regular sliced, ← stop, splicedFrom_place_nil same word]

end Parts

/-- **An edit of a node replaces its text** and keeps what is around it. -/
theorem exists_around (regular : node.IsRegular source) :
    ∃ before after, source = before ++ node.textIn source ++ after ∧
      reach before = (node.rangeIn source).start ∧
      reach (before ++ node.textIn source) = (node.rangeIn source).stop ∧
      ∀ code, source.spliced [⟨code, node.rangeIn source⟩] = before ++ code ++ after := by
  obtain ⟨before, after, same, start, stop⟩ := slice?_eq_some_iff.1 regular.slice?_eq
  obtain ⟨reached, reached'⟩ := regular.reach_eq same start stop
  exact ⟨before, after, same, reached, reached', regular.spliced_rangeIn same start stop⟩

end Node.IsRegular
end Retouch
