import QueryPanel.Proofs.Filter.Recording
import QueryPanel.Proofs.Text.Lowering

/-!
# The one spelling of a key

The head of an attribute's key is looked for in lower case, but the name behind it is taken from the
key as it stands, trimmed only, at the byte where the head ends. As lower case may take more bytes
than the text, or fewer, that offset need not end the same characters in both. It does, since
neither head has a letter that another script comes down to (`exists_parts`). `normalize?` takes the
name by its offset, and gives nothing where that leaves the key or cuts a character in two.

> `normalize?_eq`: neither happens, and the spelling is the one of `normalize`.

The spelling has no blanks around it. It begins with a head, or else it is in lower case and no
alias (`IsNormal`), and so are the keys that aliases stand for. Such keys are left as they are, and
no others:

> `normalize_eq_self_iff`: the keys of this form are their own spelling.

> `normalize_normalize`: every slice can be taken, and the one spelling of a key is its own.
-/

namespace QueryPanel.FilterKey

/-! ## Cutting behind a head -/

/-- The one spelling of a key, with the name of an attribute sliced out of the trimmed key at the
byte where the head ends in lower case. -/
def normalize? (raw : String) : Option String :=
  let trimmed := Text.trim raw.toList
  let low := Text.lower trimmed
  match headOf? low with
  | some head =>
    (Text.from? trimmed (Text.byteLength head.toList)).map fun name =>
      String.ofList (head.toList ++ name)
  | none => some ((aliases.lookup (String.ofList low)).getD (String.ofList low))

/-- The heads are words of ASCII without the letters that other scripts have in lower case. -/
theorem ascii_of_mem_heads {head : String} (h : head ∈ heads) :
    ∀ c ∈ head.toList, c.toNat < 128 ∧ c ≠ 'i' ∧ c ≠ 'k' := by
  have hall : ∀ head ∈ heads,
      (head.toList.all fun c => c.toNat < 128 ∧ c ≠ 'i' ∧ c ≠ 'k') = true := by
    decide +kernel
  exact fun c hc => of_decide_eq_true (List.all_eq_true.mp (hall head h) c hc)

theorem solid_head {head : String} (h : head ∈ heads) : Text.Solid head.toList := by
  have hall : ∀ head ∈ heads, head.toList ≠ [] ∧ Text.trim head.toList = head.toList := by
    decide +kernel
  exact Text.solid_of_trim_eq (hall head h).1 (hall head h).2

/-- A text that begins with a head in lower case has as many characters in its place, and they take
as many bytes. -/
theorem exists_parts {head : String} (hhead : head ∈ heads) {text : List Char}
    (h : Text.beginsWith head.toList (Text.lower text) = true) :
    ∃ front name, text = front ++ name ∧ front.length = head.length ∧
      Text.byteLength front = Text.byteLength head.toList := by
  have hchars := ascii_of_mem_heads hhead
  obtain ⟨front, name, htext, hascii, hmap⟩ :=
    Text.exists_front_of_isPrefix_lower hchars (List.isPrefixOf_iff_prefix.mp h)
  have hlength : front.length = head.toList.length := by
    rw [← hmap, List.length_map]
  refine ⟨front, name, htext, hlength.trans String.length_toList, ?_⟩
  rw [Text.byteLength_of_ascii hascii, hlength,
    Text.byteLength_of_ascii fun c hc => (hchars c hc).1]

/-- By its slice, the one spelling of a key is the same, and the slice can be taken. -/
theorem normalize?_eq (raw : String) : normalize? raw = some (normalize raw) := by
  rw [normalize?, normalize_eq]
  cases h : headOf? (Text.lower (Text.trim raw.toList)) with
  | none => rfl
  | some head =>
    obtain ⟨hhead, hbegins⟩ := headOf?_eq_some h
    obtain ⟨front, name, htrim, hlength, hbytes⟩ := exists_parts hhead hbegins
    dsimp only
    rw [htrim, ← hbytes, Text.from?_append, ← hlength, List.drop_left]
    rfl

/-! ## Keys in their one spelling -/

/-- A key in its one spelling has no blanks around it. It begins with the head of an attribute's
key, or else it is in lower case and no alias. -/
structure IsNormal (key : String) : Prop where
  trimmed : Text.trim key.toList = key.toList
  spelled : (∃ head ∈ heads, head.toList <+: key.toList) ∨
    Text.lower key.toList = key.toList ∧ aliases.lookup key = none

/-- What an alias stands for is in its one spelling. -/
theorem isNormal_of_mem_aliases {p : String × String} (h : p ∈ aliases) : IsNormal p.2 := by
  have hall : ∀ p ∈ aliases, Text.trim p.2.toList = p.2.toList ∧
      Text.lower p.2.toList = p.2.toList ∧ aliases.lookup p.2 = none := by
    decide +kernel
  exact ⟨(hall p h).1, .inr (hall p h).2⟩

theorem isNormal_normalize (raw : String) : IsNormal (normalize raw) := by
  have htrimmed := Text.trim_trim raw.toList
  rw [normalize_eq]
  cases h : headOf? (Text.lower (Text.trim raw.toList)) with
  | some head =>
    obtain ⟨hhead, hbegins⟩ := headOf?_eq_some h
    obtain ⟨front, name, htrim, hlength, -⟩ := exists_parts hhead hbegins
    dsimp only
    rw [htrim, ← hlength, List.drop_left]
    constructor
    case trimmed =>
      rw [htrim] at htrimmed
      rw [String.toList_ofList]
      exact ((solid_head hhead).append_of_trim_eq htrimmed).trim_eq
    case spelled =>
      rw [String.toList_ofList]
      exact .inl ⟨head, hhead, List.prefix_append _ _⟩
  | none =>
    cases hlookup : aliases.lookup (String.ofList (Text.lower (Text.trim raw.toList))) with
    | some target => exact isNormal_of_mem_aliases (mem_of_lookup_eq_some hlookup)
    | none =>
      refine ⟨?_, .inr ⟨?_, hlookup⟩⟩
      · rw [Option.getD_none, String.toList_ofList, Text.trim_lower htrimmed]
      · rw [Option.getD_none, String.toList_ofList, Text.lower_lower]

/-- A key in its one spelling is left as it is. -/
theorem normalize_of_isNormal {key : String} (h : IsNormal key) : normalize key = key := by
  have hheaded : ∀ head ∈ heads, head.toList <+: key.toList →
      String.ofList (head.toList ++ key.toList.drop head.length) = key := by
    rintro head - ⟨name, hname⟩
    rw [← hname, ← String.length_toList, List.drop_left, hname, String.ofList_toList]
  rw [normalize_eq, h.trimmed]
  rcases h.spelled with ⟨head, hhead, hprefix⟩ | ⟨hlower, hlookup⟩
  · obtain ⟨name, hname⟩ := hprefix
    have hfound := headOf?_lower_append hhead name
    rw [hname] at hfound
    rw [hfound]
    exact hheaded head hhead ⟨name, hname⟩
  · rw [hlower]
    cases hfound : headOf? key.toList with
    | some head =>
      obtain ⟨hhead, hbegins⟩ := headOf?_eq_some hfound
      exact hheaded head hhead (List.isPrefixOf_iff_prefix.mp hbegins)
    | none =>
      dsimp only
      rw [String.ofList_toList, hlookup, Option.getD_none]

/-- The keys that stay as they are. -/
theorem normalize_eq_self_iff {key : String} : normalize key = key ↔ IsNormal key := by
  constructor
  · intro h
    rw [← h]
    exact isNormal_normalize key
  · exact normalize_of_isNormal

/-- Where a key begins with a head in lower case, the head ends between two characters of the
trimmed key itself. So the slice behind it can be taken. And what comes out is its own spelling. -/
theorem normalize_normalize (raw : String) :
    (∀ head ∈ heads, Text.beginsWith head.toList (Text.lower (Text.trim raw.toList)) = true →
      Text.IsBoundary (Text.trim raw.toList) (Text.byteLength head.toList)) ∧
    normalize? raw = some (normalize raw) ∧
    normalize (normalize raw) = normalize raw := by
  refine ⟨?_, normalize?_eq raw, normalize_of_isNormal (isNormal_normalize raw)⟩
  intro head hhead hbegins
  obtain ⟨front, name, htrim, -, hbytes⟩ := exists_parts hhead hbegins
  rw [htrim, ← hbytes]
  exact Text.isBoundary_byteLength front name

/-- A key with blanks around it. In lower case the first letter of the name takes a byte more and
the last one, the Kelvin sign, two less. -/
def shifting : String := "\u2003ATTR.Ⱥ\u212A "

theorem normalize_normalize_shifting :
    Text.beginsWith attributeHead.toList (Text.lower (Text.trim shifting.toList)) = true ∧
    Text.IsBoundary (Text.trim shifting.toList) 5 ∧
    normalize? shifting = some "attr.Ⱥ\u212A" ∧
    normalize "attr.Ⱥ\u212A" = "attr.Ⱥ\u212A" := by
  have hbegins : Text.beginsWith attributeHead.toList
      (Text.lower (Text.trim shifting.toList)) = true := by decide +kernel
  have hnormal : normalize shifting = "attr.Ⱥ\u212A" := by decide +kernel
  obtain ⟨hboundary, hsliced, hsame⟩ := normalize_normalize shifting
  rw [hnormal] at hsliced hsame
  exact ⟨hbegins, hboundary attributeHead List.mem_cons_self hbegins, hsliced, hsame⟩

end QueryPanel.FilterKey
