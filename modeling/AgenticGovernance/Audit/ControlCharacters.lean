import Mathlib
import AgenticGovernance.Audit.Sanitization

/-!
# Control characters in an event

`sanitize_string` escapes four characters and strips the other control characters, and
`model_post_init` sends every string field and every string value of the metadata through it.
The walker over the metadata rebuilds the dictionaries with their keys as they are.
-/

namespace AgenticGovernance.Audit

open Support

/-- U+0000 to U+001F, and U+007F. -/
def IsControl (c : Char) : Prop := c.toNat ≤ 0x1f ∨ c.toNat = 0x7f

def ControlFree (s : String) : Prop := ∀ c ∈ s.toList, ¬IsControl c

/-! ## One string -/

theorem isControl_iff (c : Char) :
    IsControl c ↔ isC0Control c = true ∨ c = '\t' ∨ c = '\n' ∨ c = '\r' := by
  have htab : c = '\t' ↔ c.toNat = 9 := Char.toNat_inj.symm
  have hnewline : c = '\n' ↔ c.toNat = 10 := Char.toNat_inj.symm
  have hreturn : c = '\r' ↔ c.toNat = 13 := Char.toNat_inj.symm
  rw [htab, hnewline, hreturn, IsControl, isC0Control]
  simp only [Bool.or_eq_true, Bool.and_eq_true, decide_eq_true_eq]
  omega

theorem mem_replaceChar {c x : Char} {by_ value : List Char} :
    x ∈ replaceChar c by_ value ↔ (x ∈ by_ ∧ c ∈ value) ∨ (x ∈ value ∧ x ≠ c) := by
  rw [replaceChar, List.mem_flatMap]
  constructor
  · rintro ⟨y, hy, hx⟩
    by_cases heq : y = c
    · subst heq
      rw [if_pos rfl] at hx
      exact Or.inl ⟨hx, hy⟩
    · rw [if_neg heq, List.mem_singleton] at hx
      subst hx
      exact Or.inr ⟨hy, heq⟩
  · rintro (⟨hx, hc⟩ | ⟨hx, hne⟩)
    · refine ⟨c, hc, ?_⟩
      rw [if_pos rfl]
      exact hx
    · refine ⟨x, hx, ?_⟩
      rw [if_neg hne]
      exact List.mem_singleton_self x

/-- What is replaced is gone, if the replacement does not bring it back. -/
theorem not_mem_replaceChar {c : Char} {by_ : List Char} (hby : c ∉ by_) (value : List Char) :
    c ∉ replaceChar c by_ value := by
  rw [mem_replaceChar]
  rintro (⟨hc, -⟩ | ⟨-, hne⟩)
  · exact hby hc
  · exact hne rfl

/-- A replacement by other characters does not bring `x` back. -/
theorem not_mem_replaceChar_of_not_mem {c x : Char} {by_ value : List Char} (hby : x ∉ by_)
    (hx : x ∉ value) : x ∉ replaceChar c by_ value := by
  rw [mem_replaceChar]
  rintro (⟨hmem, -⟩ | ⟨hmem, -⟩)
  · exact hby hmem
  · exact hx hmem

theorem sanitizeString_controlFree (nfc : String → String) (value : String) (maxLen : ℕ) :
    ControlFree (sanitizeString nfc value maxLen) := by
  intro c hc hcontrol
  rw [sanitizeString, String.toList_ofList, List.mem_filter] at hc
  obtain ⟨hmem, hkept⟩ := hc
  rcases (isControl_iff c).mp hcontrol with hstrip | rfl | rfl | rfl
  · rw [hstrip] at hkept
    cases hkept
  · exact not_mem_replaceChar (by decide) _ hmem
  · refine not_mem_replaceChar_of_not_mem (by decide) ?_ hmem
    refine not_mem_replaceChar_of_not_mem (by decide) ?_
    exact not_mem_replaceChar (by decide) _
  · refine not_mem_replaceChar_of_not_mem (by decide) ?_ hmem
    exact not_mem_replaceChar (by decide) _

/-! ## Nested values -/

/-- A key that is a string. -/
def keyText : PyKey → List String
  | .str s => [s]
  | _ => []

mutual

/-- The strings in a value: the leaves and the keys, at any depth. -/
def valueStrings : PyValue → List String
  | .str s => [s]
  | .list items => itemStrings items
  | .tuple items => itemStrings items
  | .dict entries => entryStrings entries
  | _ => []

def itemStrings : List PyValue → List String
  | [] => []
  | v :: items => valueStrings v ++ itemStrings items

def entryStrings : List (PyKey × PyValue) → List String
  | [] => []
  | (k, v) :: entries => keyText k ++ valueStrings v ++ entryStrings entries

end

mutual

/-- The keys in a value, at any depth. -/
def valueKeys : PyValue → List String
  | .list items => itemKeys items
  | .tuple items => itemKeys items
  | .dict entries => entryKeys entries
  | _ => []

def itemKeys : List PyValue → List String
  | [] => []
  | v :: items => valueKeys v ++ itemKeys items

def entryKeys : List (PyKey × PyValue) → List String
  | [] => []
  | (k, v) :: entries => keyText k ++ valueKeys v ++ entryKeys entries

end

mutual

/-- The walker cleans the leaves and keeps the keys. -/
theorem sanitizeMetadata_controlFree_iff (nfc : String → String) : ∀ v : PyValue,
    (∀ s ∈ valueStrings (sanitizeMetadata nfc v), ControlFree s) ↔
      ∀ k ∈ valueKeys v, ControlFree k
  | .str s => by
      rw [sanitizeMetadata, valueStrings, List.forall_mem_singleton]
      exact iff_of_true (sanitizeString_controlFree nfc s _) (by simp [valueKeys])
  | .list items => by
      rw [sanitizeMetadata, valueStrings, valueKeys]
      exact sanitizeItems_controlFree_iff nfc items
  | .tuple items => by
      rw [sanitizeMetadata, valueStrings, valueKeys]
      exact sanitizeItems_controlFree_iff nfc items
  | .dict entries => by
      rw [sanitizeMetadata, valueStrings, valueKeys]
      exact sanitizeEntries_controlFree_iff nfc entries
  | .none => Iff.rfl
  | .bool _ => Iff.rfl
  | .int _ => Iff.rfl
  | .float _ => Iff.rfl
  | .other _ => Iff.rfl

theorem sanitizeItems_controlFree_iff (nfc : String → String) : ∀ items : List PyValue,
    (∀ s ∈ itemStrings (sanitizeItems nfc items), ControlFree s) ↔
      ∀ k ∈ itemKeys items, ControlFree k
  | [] => Iff.rfl
  | v :: items => by
      rw [sanitizeItems, itemStrings, itemKeys, List.forall_mem_append,
        List.forall_mem_append, sanitizeMetadata_controlFree_iff nfc v,
        sanitizeItems_controlFree_iff nfc items]

theorem sanitizeEntries_controlFree_iff (nfc : String → String) :
    ∀ entries : List (PyKey × PyValue),
      (∀ s ∈ entryStrings (sanitizeEntries nfc entries), ControlFree s) ↔
        ∀ k ∈ entryKeys entries, ControlFree k
  | [] => Iff.rfl
  | (k, v) :: entries => by
      rw [sanitizeEntries, entryStrings, entryKeys, List.forall_mem_append,
        List.forall_mem_append, List.forall_mem_append, List.forall_mem_append,
        sanitizeMetadata_controlFree_iff nfc v, sanitizeEntries_controlFree_iff nfc entries]

end

/-! ## A constructed event -/

/-- The strings of an event that a caller controls. -/
def LoggedEvent.strings (event : LoggedEvent) : List String :=
  [event.base.agentId, event.base.kind] ++ event.base.model.toList ++
    event.base.inputHash.toList ++ event.base.outputHash.toList ++
    valueStrings (metadataDict event.metadata)

/-- The keys of the metadata, at any depth. -/
def EventArgs.metadataKeys (a : EventArgs) : List String :=
  valueKeys (metadataDict a.metadata)

theorem metadataDict_sanitize (nfc : String → String) (metadata : List (String × PyValue)) :
    metadataDict (metadata.map fun e => (e.1, sanitizeMetadata nfc e.2)) =
      sanitizeMetadata nfc (metadataDict metadata) := by
  rw [metadataDict, metadataDict, sanitizeMetadata]
  congr 1
  induction metadata with
  | nil => rfl
  | cons e metadata ih =>
      rw [List.map_cons, List.map_cons, List.map_cons, sanitizeEntries, ih]

theorem optional_controlFree (nfc : String → String) (field : Option String) (maxLen : ℕ) :
    ∀ s ∈ (field.map fun s => sanitizeString nfc s maxLen).toList, ControlFree s := by
  intro s hs
  rw [Option.mem_toList, Option.map_eq_some_iff] at hs
  obtain ⟨raw, -, rfl⟩ := hs
  exact sanitizeString_controlFree nfc raw maxLen

/-- A constructed event is free of control characters exactly if the keys of its metadata
are. -/
theorem event_control_free_iff {nfc : String → String} {a : EventArgs} {event : LoggedEvent}
    (h : a.construct nfc = some event) :
    (∀ s ∈ event.strings, ControlFree s) ↔ ∀ k ∈ a.metadataKeys, ControlFree k := by
  obtain ⟨-, rfl⟩ := EventArgs.construct_eq_some_iff.mp h
  rw [LoggedEvent.strings, EventArgs.metadataKeys, ← sanitizeMetadata_controlFree_iff nfc,
    ← metadataDict_sanitize, List.forall_mem_append]
  refine and_iff_right ?_
  simp only [List.forall_mem_append, List.forall_mem_cons]
  exact ⟨⟨⟨⟨sanitizeString_controlFree _ _ _, sanitizeString_controlFree _ _ _, by simp⟩,
    optional_controlFree _ _ _⟩, optional_controlFree _ _ _⟩, optional_controlFree _ _ _⟩

/-! ### An escape sequence as a value and as a key -/

def escapeArgs (metadata : List (String × PyValue)) : EventArgs :=
  ⟨none, "agent", none, "tool.call", none, none, none, metadata⟩

/-- As a value in a list, the escape character is stripped. -/
theorem escape_in_value_stripped :
    ∃ event, (escapeArgs [("note", .list [.str "\x1b[2J"])]).construct id = some event ∧
      ∀ s ∈ event.strings, ControlFree s := by
  have h : (escapeArgs [("note", .list [.str "\x1b[2J"])]).construct id =
      some ((escapeArgs [("note", .list [.str "\x1b[2J"])]).sanitize id) :=
    if_pos (by decide)
  refine ⟨_, h, (event_control_free_iff h).mpr ?_⟩
  intro k hk
  obtain rfl : k = "note" := List.mem_singleton.mp hk
  change ∀ c ∈ ['n', 'o', 't', 'e'], ¬IsControl c
  simp [IsControl]

/-- As a key it stays. -/
theorem escape_in_key_stays :
    ∃ event, (escapeArgs [("\x1b[2J", .none)]).construct id = some event ∧
      ¬∀ s ∈ event.strings, ControlFree s := by
  refine ⟨_, if_pos (by decide), ?_⟩
  intro h
  have hkey : "\x1b[2J" ∈ ((escapeArgs [("\x1b[2J", .none)]).sanitize id).strings :=
    List.mem_of_mem_getLast? rfl
  exact h _ hkey '\x1b' (by decide) (Or.inl (by decide))

end AgenticGovernance.Audit
