import VpdHeaders.Disk.Output
import VpdHeaders.Proofs.Text.Joined

/-! # The directories that a path lies in

Each of them is the path without some of its last names, up to the empty path, which stands for the
directory that the path starts from. -/
namespace VpdHeaders.Path

/-- The fields of a path that name something. -/
def names (path : String) : List String := (fields path).filter isName

theorem names_empty : names "" = [] := rfl

theorem names_append (s t : String) : names (s ++ "/" ++ t) = names s ++ names t := by
  have hchars : (s ++ "/" ++ t).toList = s.toList ++ '/' :: t.toList := by simp
  rw [names, names, names, fields, fields, fields, Text.fieldsOf, Text.fieldsOf, Text.fieldsOf, hchars,
    Text.fields_append, List.map_append, List.filter_append]

section Joined

variable {ys : List String}

theorem names_joined (h : ∀ y ∈ ys, '/' ∉ y.toList) :
    names (Text.joined "/" ys) = ys.filter isName := by
  rcases eq_or_ne ys [] with rfl | hne
  · rfl
  · have hfields : fields (Text.joined "/" ys) = ys := Text.fieldsOf_eq_iff.mpr ⟨hne, rfl, h⟩
    rw [names, hfields]

private theorem joined_starts (ys zs : List String) :
    (Text.joined "/" ys).toList <+: (Text.joined "/" (ys ++ zs)).toList := by
  induction ys with
  | nil => exact List.nil_prefix
  | cons y ys ih =>
    cases ys with
    | nil =>
      cases zs with
      | nil => exact List.prefix_rfl
      | cons z zs => simp [Text.joined]
    | cons x ys => simpa [Text.joined, List.append_assoc] using ih

end Joined

section Chain

def Start.followedBy (start : Start) (ys : List String) : String :=
  start.text ++ Text.joined "/" ys

/-- Fields hold no slash, and behind a dot comes a slash. -/
structure Start.Fits (start : Start) (ys : List String) : Prop where
  noSlash : ∀ y ∈ ys, '/' ∉ y.toList
  dot : start = .dot → ∀ y ∈ ys.head?, y = ""

variable {start : Start} {xs ys zs : List String} {path p : String} {i : Nat}

theorem Start.Fits.left (h : start.Fits (ys ++ zs)) : start.Fits ys where
  noSlash y hy := h.noSlash y (List.mem_append_left _ hy)
  dot hs y hy := h.dot hs y (by rw [List.head?_append, Option.mem_def.mp hy]; rfl)

theorem names_followedBy (h : start.Fits ys) : names (start.followedBy ys) = ys.filter isName := by
  cases start with
  | root =>
    have hroot : Start.root.followedBy ys = "" ++ "/" ++ Text.joined "/" ys := by
      simp [Start.followedBy, Start.text]
    rw [hroot, names_append, names_empty, List.nil_append, names_joined h.noSlash]
  | dot =>
    match ys with
    | [] => rfl
    | [y] =>
      obtain rfl : y = "" := h.dot rfl y rfl
      rfl
    | y :: z :: zs =>
      obtain rfl : y = "" := h.dot rfl y rfl
      have hdot : Start.dot.followedBy ("" :: z :: zs) = "." ++ "/" ++ Text.joined "/" (z :: zs) := by
        rw [← String.toList_inj]
        simp [Start.followedBy, Start.text, Text.joined]
      have hrest := names_joined fun y hy => h.noSlash y (List.mem_cons_of_mem _ hy)
      rw [hdot, names_append, hrest]
      rfl
  | bare => simpa [Start.followedBy, Start.text] using names_joined h.noSlash

private theorem followedBy_starts (start : Start) (ys zs : List String) :
    (start.followedBy ys).toList <+: (start.followedBy (ys ++ zs)).toList := by
  rw [Start.followedBy, Start.followedBy, String.toList_append, String.toList_append,
    List.prefix_append_right_inj]
  exact joined_starts ys zs

/-- A path that starts another one and leaves this many of its names out. -/
structure Starts (p path : String) (left : Nat) : Prop where
  chars : p.toList <+: path.toList
  names : ∃ missing, names path = names p ++ missing ∧ missing.length = left

private theorem starts_followedBy (h : start.Fits (ys ++ zs)) :
    Starts (start.followedBy ys) (start.followedBy (ys ++ zs)) (zs.filter isName).length where
  chars := followedBy_starts start ys zs
  names := ⟨zs.filter isName, by
    rw [names_followedBy h, names_followedBy h.left, List.filter_append], rfl⟩

private theorem eq_followedBy_of_chain (hp : start.chain[i]? = some p) (hne : p ≠ "") :
    i = 0 ∧ p = start.followedBy [] := by
  cases start with
  | root => cases i <;> simp_all [Start.chain, Start.text, Start.followedBy, Text.joined]
  | dot => rcases i with _ | _ | i <;>
      simp_all [Start.chain, Start.text, Start.followedBy, Text.joined]
  | bare => cases i <;> simp_all [Start.chain]

private theorem starts_of_chainFrom (hp : (chainFrom start xs)[i]? = some p) (hne : p ≠ "")
    (h : start.Fits (xs.reverse ++ ys)) :
    Starts p (start.followedBy (xs.reverse ++ ys)) (i + (ys.filter isName).length) := by
  -- `ys` takes up the fields that are gone, so that the whole path stays the same.
  induction xs generalizing i ys with
  | nil =>
    obtain ⟨rfl, rfl⟩ := eq_followedBy_of_chain hp hne
    rw [Nat.zero_add]
    exact starts_followedBy h
  | cons field rest ih =>
    rw [List.reverse_cons, List.append_assoc, List.singleton_append] at h ⊢
    rw [chainFrom] at hp
    by_cases hname : isName field = true
    · rw [if_pos hname] at hp
      cases i with
      | zero =>
        obtain rfl : start.followedBy (rest.reverse ++ [field]) = p := by
          simpa [Start.followedBy] using hp
        rw [List.append_cons rest.reverse field ys] at h ⊢
        rw [Nat.zero_add]
        exact starts_followedBy h
      | succ i =>
        have hrest := ih hp h
        rwa [List.filter_cons_of_pos hname, List.length_cons, ← Nat.add_assoc,
          Nat.add_right_comm] at hrest
    · rw [if_neg hname] at hp
      have hrest := ih hp h
      rwa [List.filter_cons_of_neg hname] at hrest

private theorem length_le_of_chainFrom_empty (hp : (chainFrom start xs)[i]? = some "")
    (h : start.Fits xs.reverse) : start ≠ .root ∧ (xs.filter isName).length ≤ i := by
  induction xs generalizing i with
  | nil =>
    refine ⟨?_, Nat.zero_le i⟩
    rintro rfl
    cases i <;> simp [chainFrom, Start.chain] at hp
  | cons field rest ih =>
    rw [List.reverse_cons] at h
    rw [chainFrom] at hp
    by_cases hname : isName field = true
    · rw [if_pos hname] at hp
      rw [List.filter_cons_of_pos hname, List.length_cons]
      cases i with
      | zero =>
        have hempty : start.followedBy (rest.reverse ++ [field]) = "" := by
          simpa [Start.followedBy] using hp
        have hnames := names_followedBy h
        rw [hempty, names_empty, List.filter_append, List.filter_cons_of_pos hname] at hnames
        simp at hnames
      | succ i =>
        obtain ⟨hroot, hle⟩ := ih hp h.left
        exact ⟨hroot, Nat.succ_le_succ hle⟩
    · rw [if_neg hname] at hp
      rw [List.filter_cons_of_neg hname]
      exact ih hp h.left

private theorem length_lt_chainFrom (start : Start) (xs : List String) :
    (xs.filter isName).length < (chainFrom start xs).length := by
  induction xs with
  | nil => cases start <;> decide
  | cons field rest ih =>
    rw [chainFrom]
    by_cases hname : isName field = true
    · rw [if_pos hname, List.filter_cons_of_pos hname]
      exact Nat.succ_lt_succ ih
    · rwa [if_neg hname, List.filter_cons_of_neg hname]

end Chain

section Parts

variable {path p : String} {start : Start} {ys : List String} {i : Nat}

private theorem fields_of_isAbsolute (h : isAbsolute path = true) :
    ∃ field rest, fields path = "" :: field :: rest := by
  obtain ⟨cs, hcs⟩ : ∃ cs, path.toList = '/' :: cs := by
    rw [isAbsolute, beq_iff_eq] at h
    exact List.head?_eq_some_iff.mp h
  obtain ⟨x, rest, hrest⟩ := List.exists_cons_of_ne_nil (Text.fields_ne_nil '/' cs)
  exact ⟨_, _, by rw [fields, Text.fieldsOf, hcs, Text.fields, if_pos rfl, hrest]; rfl⟩

private theorem eq_followedBy_of_parts (h : parts path = (start, ys)) :
    path = start.followedBy ys ∧ start.Fits ys ∧ (isAbsolute path = true ↔ start = .root) := by
  have hjoined := Text.fieldsOf_eq_iff.mp (Eq.refl (Text.fieldsOf '/' path))
  have hpath : path = Text.joined "/" (fields path) := hjoined.2.1
  have hslash : ∀ y ∈ fields path, '/' ∉ y.toList := hjoined.2.2
  rw [parts] at h
  split at h
  · next field rest hfields =>
    obtain ⟨rfl, rfl⟩ := Prod.mk.inj h
    rw [hfields] at hpath hslash
    have hroot : path = Start.root.followedBy (field :: rest) := by
      simpa [Start.followedBy, Start.text, Text.joined] using hpath
    exact ⟨hroot, ⟨fun y hy => hslash y (List.mem_cons_of_mem _ hy), by simp⟩, by
      simp [isAbsolute, hroot, Start.followedBy, Start.text]⟩
  · next rest hfields =>
    obtain ⟨rfl, rfl⟩ := Prod.mk.inj h
    rw [hfields] at hpath hslash
    have hrest : ∀ y ∈ rest, '/' ∉ y.toList := fun y hy => hslash y (List.mem_cons_of_mem _ hy)
    cases rest with
    | nil => exact ⟨hpath, ⟨by simp, by simp⟩, by simp [isAbsolute, hpath, Text.joined]⟩
    | cons field rest =>
      have hdot : path = Start.dot.followedBy ("" :: field :: rest) := by
        rw [← String.toList_inj, hpath]
        simp [Start.followedBy, Start.text, Text.joined]
      exact ⟨hdot, ⟨by simpa using hrest, by simp⟩, by
        simp [isAbsolute, hdot, Start.followedBy, Start.text]⟩
  · next all hroot hdot =>
    obtain ⟨rfl, rfl⟩ := Prod.mk.inj h
    have hbare : path = Start.bare.followedBy (fields path) := by
      simpa [Start.followedBy, Start.text] using hpath
    refine ⟨hbare, ⟨hslash, by simp⟩, iff_of_false (fun ha => ?_) (by simp)⟩
    obtain ⟨field, rest, hfields⟩ := fields_of_isAbsolute ha
    exact hroot field rest hfields

/-- A path on the way to another one, without these names at its end. It starts from the same place. -/
structure IsOver (p path : String) (missing : List String) : Prop where
  ne_empty : p ≠ ""
  absolute : isAbsolute p = isAbsolute path
  size : p.utf8ByteSize ≤ path.utf8ByteSize
  names : names path = names p ++ missing

theorem IsOver.of_starts {missing : List String} (hne : p ≠ "") (h : p.toList <+: path.toList)
    (hnames : Path.names path = Path.names p ++ missing) : IsOver p path missing where
  ne_empty := hne
  names := hnames
  absolute := by
    obtain ⟨more, hmore⟩ := h
    have hchars : p.toList ≠ [] := by simpa using hne
    rw [isAbsolute, isAbsolute, ← hmore, List.head?_append_of_ne_nil _ hchars]
  size := by
    obtain ⟨more, hmore⟩ := h
    have hpath : path = p ++ String.ofList more := by
      rw [← String.toList_inj, String.toList_append, String.toList_ofList, hmore]
    rw [hpath, String.utf8ByteSize_append]
    exact Nat.le_add_right _ _

/-- Every path of a chain is on the way, and the empty one comes when there are no names left. -/
theorem chain_cases (hp : (chain path)[i]? = some p) :
    (∃ missing, IsOver p path missing ∧ missing.length = i) ∨
      (p = "" ∧ isAbsolute path = false ∧ (names path).length ≤ i) := by
  rw [chain] at hp
  cases hparts : parts path with
  | mk start ys =>
    obtain ⟨hpath, hfits, hroot⟩ := eq_followedBy_of_parts hparts
    rw [hparts] at hp
    have hfits' : start.Fits (ys.reverse.reverse ++ []) := by simpa using hfits
    by_cases hne : p = ""
    · subst hne
      obtain ⟨hstart, hle⟩ := length_le_of_chainFrom_empty hp hfits'.left
      refine .inr ⟨rfl, by simpa [hstart] using hroot, ?_⟩
      rwa [hpath, names_followedBy hfits, ← List.length_reverse, ← List.filter_reverse]
    · have hstarts := starts_of_chainFrom hp hne hfits'
      rw [List.append_nil, List.reverse_reverse, ← hpath] at hstarts
      obtain ⟨missing, hnames, hlength⟩ := hstarts.names
      exact .inl ⟨missing, .of_starts hne hstarts.chars hnames, hlength⟩

theorem isOver_of_mem_ancestors (hp : p ∈ ancestors path) (hne : p ≠ "") :
    ∃ missing, missing ≠ [] ∧ IsOver p path missing := by
  obtain ⟨i, hi⟩ := List.mem_iff_getElem?.mp hp
  rw [ancestors, List.getElem?_drop] at hi
  rcases chain_cases hi with ⟨missing, hover, hlength⟩ | ⟨hempty, -⟩
  · refine ⟨missing, ?_, hover⟩
    rintro rfl
    rw [List.length_nil] at hlength
    omega
  · exact absurd hempty hne

private theorem length_names_lt_chain (path : String) : (names path).length < (chain path).length := by
  rw [chain]
  cases hparts : parts path with
  | mk start ys =>
    obtain ⟨hpath, hfits, -⟩ := eq_followedBy_of_parts hparts
    have hlt := length_lt_chainFrom start ys.reverse
    rwa [List.filter_reverse, List.length_reverse, ← names_followedBy hfits, ← hpath] at hlt

/-- The directory of a path has all its names but the last one. -/
theorem isOver_directoryOf (h : names path ≠ []) :
    ∃ name, IsOver (Disk.directoryOf path) path [name] := by
  have hlength := length_names_lt_chain path
  have hpos := List.length_pos_iff.mpr h
  obtain ⟨parent, hparent⟩ : ∃ parent, (chain path)[1]? = some parent :=
    ⟨_, List.getElem?_eq_getElem (by omega)⟩
  have hhead : parent? path = some parent := by
    rw [parent?, ancestors, List.head?_drop, hparent]
  rw [Disk.directoryOf, hhead]
  rcases chain_cases hparent with ⟨missing, hover, hone⟩ | ⟨rfl, habsolute, hle⟩
  · obtain ⟨name, rfl⟩ := List.length_eq_one_iff.mp hone
    exact ⟨name, by simpa [hover.ne_empty] using hover⟩
  · obtain ⟨name, hname⟩ := List.length_eq_one_iff.mp (Nat.le_antisymm hle hpos)
    have hsize : path.utf8ByteSize ≠ 0 := by
      rw [Ne, String.utf8ByteSize_eq_zero_iff]
      rintro rfl
      exact h rfl
    exact ⟨name, by decide, habsolute.symm, Nat.one_le_iff_ne_zero.mpr hsize, hname⟩

/-- A bare name goes to the working directory. -/
theorem directoryOf_of_no_slash (h : '/' ∉ path.toList) : Disk.directoryOf path = "." := by
  have hfields : fields path = [path] := by
    rw [fields, Text.fieldsOf, Text.fields_of_not_mem h, List.map_singleton, String.ofList_toList]
  by_cases hdot : path = "."
  · rw [hdot]
    rfl
  have hparts : parts path = (.bare, [path]) := by
    rw [parts, hfields]
    split <;> simp_all
  rw [Disk.directoryOf, parent?, ancestors, chain, hparts]
  by_cases hname : isName path = true <;> simp [chainFrom, hname, Start.chain]

end Parts

end VpdHeaders.Path
