import DiagramLint.Proofs.Detection
import Mathlib.Data.List.Find

/-!
The order of the words that tell kinds. Some of the words begin others, but a header that begins with one of them and
a blank, a colon or the end of the line behind it begins with none of the others like this. So the kind that a header
tells is that of its word, in whatever order the words are tried (`kind_in_any_order`).
-/
namespace DiagramLint

open Text

/-- The kind that a header line tells by a table of words: that of the first word in the table that begins it. -/
def Kind.ofTable (table : List (String × Kind)) (t : Text) : Kind :=
  match table.find? fun entry => (afterKeywordColon? entry.1 t).isSome with
  | some (_, kind) => kind
  | none => .unknown

variable {t : Text} {table : List (String × Kind)}

theorem ofTable_headerWords (t : Text) : Kind.ofTable headerWords t = Kind.ofHeader t := rfl

theorem leads_unique {a b : String × Kind} (listed : a ∈ headerWords) (other : b ∈ headerWords) (first : t.Leads a.1)
    (second : t.Leads b.1) : a = b :=
  headerWord_unique listed other (afterKeywordColon?_isSome_iff.mpr first) (afterKeywordColon?_isSome_iff.mpr second)

theorem nodup_headerWords : headerWords.Nodup := by
  have distinct : (headerWords.map Prod.fst).Nodup := by decide
  exact .of_map Prod.fst distinct

theorem length_leading_le (t : Text) : (headerWords.filter fun entry => t.Leads entry.1).length ≤ 1 := by
  have distinct := nodup_headerWords.filter fun entry => t.Leads entry.1
  have leading : ∀ entry ∈ headerWords.filter fun entry => t.Leads entry.1, entry ∈ headerWords ∧ t.Leads entry.1 := by
    simp
  generalize (headerWords.filter fun entry => t.Leads entry.1) = found at distinct leading
  match found with
  | [] => exact Nat.zero_le 1
  | [_] => exact Nat.le_refl 1
  | a :: b :: rest =>
    obtain ⟨listed, first⟩ := leading a (by simp)
    obtain ⟨other, second⟩ := leading b (by simp)
    have same : a = b := leads_unique listed other first second
    simp [same] at distinct

/-- The first entry that begins a header is the only one, so it is found wherever it stands in the table. -/
theorem ofTable_of_perm (order : table.Perm headerWords) : Kind.ofTable table t = Kind.ofHeader t := by
  have unique : {entry ∈ table | (afterKeywordColon? entry.1 t).isSome}.Subsingleton := by
    rintro a ⟨listed, first⟩ b ⟨other, second⟩
    exact headerWord_unique (order.mem_iff.mp listed) (order.mem_iff.mp other) first second
  rw [← ofTable_headerWords, Kind.ofTable, Kind.ofTable, List.find?_eq_find?_of_perm order unique]

/-- At most one of the words begins a header. So a table of the words in any order tells the kind that goes with this
word, or no known kind where there is none. -/
theorem kind_in_any_order (t : Text) (table : List (String × Kind)) (order : table.Perm headerWords) :
    (headerWords.filter fun entry => t.Leads entry.1).length ≤ 1 ∧
    Kind.ofTable table t = Kind.ofHeader t ∧
    (∀ entry ∈ headerWords, t.Leads entry.1 → Kind.ofTable table t = entry.2) ∧
    ((∀ entry ∈ headerWords, ¬ t.Leads entry.1) → Kind.ofTable table t = .unknown) := by
  have same : Kind.ofTable table t = Kind.ofHeader t := ofTable_of_perm order
  refine ⟨length_leading_le t, same, ?_, ?_⟩
  · intro entry listed leads
    rw [same]
    exact ofHeader_of_word listed (afterKeywordColon?_isSome_iff.mpr leads)
  · intro unrecognised
    have missing : headerWords.find? (fun entry => (afterKeywordColon? entry.1 t).isSome) = none := by
      rw [List.find?_eq_none]
      intro entry listed begins
      exact unrecognised entry listed (afterKeywordColon?_isSome_iff.mp begins)
    rw [same, ← ofTable_headerWords, Kind.ofTable, missing]

/-- The shorter of two words, tried in front of the longer one, does not begin a header with the longer one. -/
theorem kind_in_any_order_reversed : headerWords.reverse.Perm headerWords ∧
    headerWords.reverse.findIdx (·.1 = "stateDiagram") < headerWords.reverse.findIdx (·.1 = "stateDiagram-v2") ∧
    Kind.ofTable headerWords.reverse "stateDiagram-v2".toList = .stateV2 ∧
    Kind.ofTable headerWords.reverse "stateDiagram: x".toList = .state := by
  have order : headerWords.reverse.Perm headerWords := List.reverse_perm headerWords
  refine ⟨order, by decide, ?_, ?_⟩
  · exact (kind_in_any_order _ _ order).2.2.1 ("stateDiagram-v2", .stateV2) (by decide) (by decide)
  · exact (kind_in_any_order _ _ order).2.2.1 ("stateDiagram", .state) (by decide) (by decide)

end DiagramLint
