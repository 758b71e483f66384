import Mathlib.Data.List.DropRight
import VariantBuild.Path
/-!
# Components of paths

Two facts carry all reasoning about paths by their components. A name below a path is one more
component, however the path is spelled (`components_joinText`), and a path that has a parent is this
parent with one more component (`parent?_cases`). Both come down to the pieces of the text: separators
put pieces together (`pieces_intercalate`), and pieces that count for nothing stand for no component.
-/

namespace VariantBuild.Path

/-- A text that can be the name of a file: a single piece that stands for itself. -/
structure IsFileName (name : String) : Prop where
  noSeparator : '/' ∉ name.toList
  notVoid : isVoid name = false
  notUp : name ≠ ".."

/-- The components that the pieces of a body stand for. -/
def bodyComponents (body : List String) : List Component :=
  (body.filter (!isVoid ·)).map componentOf

/-- The components that the pieces of a text stand for, the first of which may be a head. -/
def textComponents : List String → List Component
  | "" :: body => .root :: bodyComponents body
  | "." :: body => .here :: bodyComponents body
  | body => bodyComponents body

variable {p q : Path} {name : String} {head : Head} {body xs : List String}

/-! ## Pieces -/

theorem pieces_ne_nil (p : Path) : p.pieces ≠ [] := by
  simpa [pieces, Text.split] using Text.pieces_ne_nil (· == '/') p.text.toList

theorem noSeparator_of_mem_pieces {x : String} (h : x ∈ p.pieces) : '/' ∉ x.toList := by
  obtain ⟨cs, hcs, rfl⟩ := List.mem_map.1 h
  rw [String.toList_ofList]
  intro hslash
  simpa using Text.not_isSeparator_of_mem_pieces hcs hslash

/-- A path is its pieces, joined by separators. -/
theorem intercalate_pieces (p : Path) : "/".intercalate p.pieces = p.text := by
  rw [← String.toList_inj, String.toList_intercalate, pieces, Text.split, List.map_map]
  have hid : String.toList ∘ String.ofList = id := funext fun cs => String.toList_ofList
  rw [hid, List.map_id]
  exact Text.intercalate_pieces '/' p.text.toList

theorem pieces_intercalate (hne : xs ≠ []) (h : ∀ x ∈ xs, '/' ∉ x.toList) :
    pieces ⟨"/".intercalate xs⟩ = xs := by
  have hchars : Text.pieces (· == '/') ("/".intercalate xs).toList = xs.map String.toList := by
    rw [String.toList_intercalate]
    exact Text.pieces_intercalate (by simpa using hne) (by simpa using h)
  rw [pieces, Text.split, hchars, List.map_map]
  have hid : String.ofList ∘ String.toList = id := funext fun x => String.ofList_toList
  rw [hid, List.map_id]

/-- A name behind a separator is one more piece. -/
theorem pieces_append_name (text : String) (h : '/' ∉ name.toList) :
    pieces ⟨text ++ "/" ++ name⟩ = pieces ⟨text⟩ ++ [name] := by
  have hname : Text.pieces (· == '/') name.toList = [name.toList] := by
    refine Text.pieces_eq_singleton fun c hc => ?_
    simpa using fun heq : c = '/' => h (heq ▸ hc)
  have hchars : (text ++ "/" ++ name).toList = text.toList ++ '/' :: name.toList := by simp
  have hcut : Text.pieces (· == '/') (text.toList ++ '/' :: name.toList) =
      Text.pieces (· == '/') text.toList ++ [name.toList] := by
    rw [Text.pieces_append_cons rfl, hname]
  simp only [pieces, Text.split, hchars, hcut, List.map_append, List.map_singleton,
    String.ofList_toList]

/-! ## Components of pieces -/

theorem bodyComponents_append (body rest : List String) :
    bodyComponents (body ++ rest) = bodyComponents body ++ bodyComponents rest := by
  simp [bodyComponents]

theorem bodyComponents_of_isVoid {x : String} (h : isVoid x = true) : bodyComponents [x] = [] := by
  simp [bodyComponents, h]

theorem bodyComponents_of_not_isVoid {x : String} (h : isVoid x = false) :
    bodyComponents [x] = [componentOf x] := by
  simp [bodyComponents, h]

theorem IsFileName.bodyComponents_eq (h : IsFileName name) : bodyComponents [name] = [.name name] := by
  rw [bodyComponents_of_not_isVoid h.notVoid, componentOf, if_neg h.notUp]

/-- What a path starts with: nothing at all, a separator, a point, or a piece that counts. -/
theorem parts_cases (p : Path) :
    (p.pieces = [""] ∧ p.parts = (.relative, [])) ∨
    (∃ body, body ≠ [] ∧ p.pieces = "" :: body ∧ p.parts = (.absolute, body)) ∨
    (∃ body, p.pieces = "." :: body ∧ p.parts = (.here, body)) ∨
    (∃ x rest, isVoid x = false ∧ p.pieces = x :: rest ∧ p.parts = (.relative, x :: rest)) := by
  obtain ⟨x, rest, hp⟩ := List.exists_cons_of_ne_nil p.pieces_ne_nil
  by_cases hempty : x = ""
  · subst hempty
    by_cases hrest : rest = []
    · exact .inl ⟨by rw [hp, hrest], by simp [parts, hp, hrest]⟩
    · exact .inr (.inl ⟨rest, hrest, hp, by simp [parts, hp, hrest]⟩)
  by_cases hhere : x = "."
  · subst hhere
    exact .inr (.inr (.inl ⟨rest, hp, by simp [parts, hp]⟩))
  · have hvoid : isVoid x = false := by simp [isVoid, hempty, hhere]
    exact .inr (.inr (.inr ⟨x, rest, hvoid, hp, by simp [parts, hp, hempty, hhere]⟩))

theorem components_eq (p : Path) :
    p.components = p.parts.1.components ++ bodyComponents p.parts.2 := rfl

theorem textComponents_of_not_isVoid {x : String} (h : isVoid x = false) (rest : List String) :
    textComponents (x :: rest) = bodyComponents (x :: rest) := by
  have hne : x ≠ "" ∧ x ≠ "." := by simpa [isVoid] using h
  simp [textComponents, hne.1, hne.2]

/-- The components of a path that is not empty are those of its pieces. -/
theorem components_eq_textComponents (h : p.pieces ≠ [""]) :
    p.components = textComponents p.pieces := by
  rw [components_eq]
  rcases p.parts_cases with ⟨hp, -⟩ | ⟨body, -, hp, hparts⟩ | ⟨body, hp, hparts⟩ |
    ⟨x, rest, hx, hp, hparts⟩
  · exact absurd hp h
  · rw [hp, hparts]
    rfl
  · rw [hp, hparts]
    rfl
  · rw [hp, hparts, textComponents_of_not_isVoid hx]
    rfl

theorem textComponents_append (h : xs ≠ []) (rest : List String) :
    textComponents (xs ++ rest) = textComponents xs ++ bodyComponents rest := by
  obtain ⟨x, xs, rfl⟩ := List.exists_cons_of_ne_nil h
  by_cases hvoid : isVoid x = false
  · rw [List.cons_append, textComponents_of_not_isVoid hvoid, textComponents_of_not_isVoid hvoid,
      ← List.cons_append, bodyComponents_append]
  · have hx : x = "" ∨ x = "." := by simpa [isVoid, or_iff_not_imp_left] using hvoid
    rcases hx with rfl | rfl <;> simp [textComponents, bodyComponents_append]

/-- The last piece only adds what it stands for, unless it is all there is. -/
theorem components_of_pieces_append (hxs : xs ≠ []) (h : p.pieces = xs ++ [name]) :
    p.components = textComponents xs ++ bodyComponents [name] := by
  have hne : p.pieces ≠ [""] := by
    intro heq
    have hlen := congrArg List.length (h.symm.trans heq)
    have hpos := List.length_pos_iff.2 hxs
    simp only [List.length_append, List.length_singleton] at hlen
    omega
  rw [components_eq_textComponents hne, h, textComponents_append hxs]

/-! ## Names below a path -/

theorem IsFileName.ne_empty (h : IsFileName name) : name ≠ "" := by
  rintro rfl
  exact absurd h.notVoid (by decide)

theorem IsFileName.not_isAbsolute (h : IsFileName name) : isAbsolute ⟨name⟩ = false := by
  rw [isAbsolute, beq_eq_false_iff_ne]
  intro hhead
  exact h.noSeparator (List.mem_of_head? hhead)

/-- A name alone is one component. -/
theorem IsFileName.components_eq (h : IsFileName name) : components ⟨name⟩ = [.name name] := by
  have hpieces : pieces ⟨name⟩ = [name] := by
    simpa using pieces_intercalate (List.cons_ne_nil name []) (by simpa using h.noSeparator)
  rw [components_eq_textComponents (by simpa [hpieces] using h.ne_empty), hpieces,
    textComponents_of_not_isVoid h.notVoid, h.bodyComponents_eq]

/-- A name below a path is one more component. -/
theorem components_joinText (p : Path) (h : IsFileName name) :
    (p.joinText name).components = p.components ++ [.name name] := by
  obtain ⟨text⟩ := p
  by_cases hempty : text = ""
  · subst hempty
    have hjoin : joinText ⟨""⟩ name = ⟨name⟩ := by simp [joinText, join]
    rw [hjoin, h.components_eq]
    rfl
  by_cases hslash : text.toList.getLast? = some '/'
  · -- the separator is there already, with an empty piece behind it
    obtain ⟨cs, hcs⟩ := List.getLast?_eq_some_iff.1 hslash
    obtain rfl : text = String.ofList cs ++ "/" := by
      rw [← String.toList_inj, hcs]
      simp
    have hjoin : joinText ⟨String.ofList cs ++ "/"⟩ name = ⟨String.ofList cs ++ "/" ++ name⟩ := by
      simp [joinText, join, h.not_isAbsolute]
    have hpieces : pieces ⟨String.ofList cs ++ "/"⟩ = pieces ⟨String.ofList cs⟩ ++ [""] := by
      simpa using pieces_append_name (String.ofList cs) (show '/' ∉ "".toList by simp)
    rw [hjoin, components_of_pieces_append (pieces_ne_nil _) (pieces_append_name _ h.noSeparator),
      components_of_pieces_append (pieces_ne_nil _) hpieces, h.bodyComponents_eq,
      bodyComponents_of_isVoid (by decide), List.append_nil]
  · have hjoin : joinText ⟨text⟩ name = ⟨text ++ "/" ++ name⟩ := by
      simp [joinText, join, h.not_isAbsolute, hempty, hslash]
    have hne : pieces ⟨text⟩ ≠ [""] := by
      intro heq
      have htext := intercalate_pieces ⟨text⟩
      rw [heq] at htext
      exact hempty (by simpa using htext.symm)
    rw [hjoin, components_of_pieces_append (pieces_ne_nil _) (pieces_append_name _ h.noSeparator),
      components_eq_textComponents hne, h.bodyComponents_eq]

/-- Names below one path are in the same place only if they are the same. -/
theorem samePlace_joinText_iff {other : String} (p : Path) (h : IsFileName name)
    (ho : IsFileName other) : (p.joinText name).SamePlace (p.joinText other) ↔ name = other := by
  rw [SamePlace, components_joinText p h, components_joinText p ho]
  simp

theorem join_of_isAbsolute (p : Path) (h : q.isAbsolute = true) : p.join q = q := by
  rw [join, if_pos h]

theorem text_ne_empty (habsolute : p.isAbsolute = true) : p.text ≠ "" := by
  intro hempty
  simp [isAbsolute, hempty] at habsolute

theorem joinText_empty (h : IsFileName name) : joinText ⟨""⟩ name = ⟨name⟩ := by
  simp [joinText, join, h.not_isAbsolute]

/-- A name below a path is behind its text, with a separator or without. -/
theorem joinText_cases (p : Path) (hempty : p.text ≠ "") (h : IsFileName name) :
    (∃ cs, p = ⟨String.ofList cs ++ "/"⟩ ∧ p.joinText name = ⟨String.ofList cs ++ "/" ++ name⟩) ∨
      p.joinText name = ⟨p.text ++ "/" ++ name⟩ := by
  obtain ⟨text⟩ := p
  by_cases hslash : text.toList.getLast? = some '/'
  · obtain ⟨cs, hcs⟩ := List.getLast?_eq_some_iff.1 hslash
    obtain rfl : text = String.ofList cs ++ "/" := by
      rw [← String.toList_inj, hcs]
      simp
    exact .inl ⟨cs, rfl, by simp [joinText, join, h.not_isAbsolute]⟩
  · change text ≠ "" at hempty
    exact .inr (by simp [joinText, join, h.not_isAbsolute, hempty, hslash])

theorem exists_text_joinText_eq (p : Path) (hempty : p.text ≠ "") (h : IsFileName name) :
    ∃ rest, (p.joinText name).text = p.text ++ rest := by
  rcases joinText_cases p hempty h with ⟨cs, rfl, hjoin⟩ | hjoin
  · exact ⟨name, by rw [hjoin]⟩
  · exact ⟨"/" ++ name, by rw [hjoin, String.append_assoc]⟩

/-- A path starts at the root exactly if a name below it does. -/
theorem isAbsolute_joinText_eq (p : Path) (h : IsFileName name) :
    (p.joinText name).isAbsolute = p.isAbsolute := by
  by_cases hempty : p.text = ""
  · obtain ⟨text⟩ := p
    obtain rfl : text = "" := hempty
    rw [joinText_empty h, h.not_isAbsolute]
    rfl
  · obtain ⟨rest, hrest⟩ := exists_text_joinText_eq p hempty h
    obtain ⟨c, cs, hcs⟩ := List.exists_cons_of_ne_nil (show p.text.toList ≠ [] by simpa using hempty)
    rw [isAbsolute, isAbsolute, hrest, String.toList_append, hcs]
    rfl

theorem isAbsolute_joinText (habsolute : p.isAbsolute = true) (h : IsFileName name) :
    (p.joinText name).isAbsolute = true :=
  (isAbsolute_joinText_eq p h).trans habsolute

/-- Its name is the last piece, and an empty piece before it is lost. -/
theorem pieces_joinText_cases (p : Path) (h : IsFileName name) :
    (p.joinText name).pieces = p.pieces ++ [name] ∨
      ∃ front, p.pieces = front ++ [""] ∧ (p.joinText name).pieces = front ++ [name] := by
  by_cases hempty : p.text = ""
  · obtain ⟨text⟩ := p
    obtain rfl : text = "" := hempty
    refine .inr ⟨[], by decide, ?_⟩
    rw [joinText_empty h]
    exact pieces_intercalate (List.cons_ne_nil name []) (by simpa using h.noSeparator)
  rcases joinText_cases p hempty h with ⟨cs, rfl, hjoin⟩ | hjoin
  · refine .inr ⟨pieces ⟨String.ofList cs⟩, ?_, by rw [hjoin, pieces_append_name _ h.noSeparator]⟩
    simpa using pieces_append_name (String.ofList cs) (show '/' ∉ "".toList by simp)
  · exact .inl (by rw [hjoin, pieces_append_name _ h.noSeparator])

/-! ## Parents -/

theorem noSeparator_of_mem_body {x : String} (h : x ∈ p.parts.2) : '/' ∉ x.toList := by
  have hmem : x ∈ p.pieces := by
    rcases p.parts_cases with ⟨-, hparts⟩ | ⟨body, -, hp, hparts⟩ | ⟨body, hp, hparts⟩ |
      ⟨y, rest, -, hp, hparts⟩
    · simp [hparts] at h
    · rw [hparts] at h
      exact hp ▸ List.mem_cons_of_mem "" h
    · rw [hparts] at h
      exact hp ▸ List.mem_cons_of_mem "." h
    · rw [hparts] at h
      exact hp ▸ h
  exact noSeparator_of_mem_pieces hmem

/-- The body of a relative path starts with a piece that counts, if at all. -/
theorem not_isVoid_of_head?_body (h : p.parts.1 = .relative) :
    ∀ x ∈ p.parts.2.head?, isVoid x = false := by
  rcases p.parts_cases with ⟨-, hparts⟩ | ⟨body, -, -, hparts⟩ | ⟨body, -, hparts⟩ |
    ⟨y, rest, hy, -, hparts⟩
  · simp [hparts]
  · rw [hparts] at h
    cases h
  · rw [hparts] at h
    cases h
  · simpa [hparts] using hy

/-- The text of a head and a body stands for their components. -/
theorem components_ofParts (hbody : ∀ x ∈ body, '/' ∉ x.toList)
    (hhead : head = .relative → ∀ x ∈ body.head?, isVoid x = false) :
    (ofParts head body).components = head.components ++ bodyComponents body := by
  by_cases hne : body = []
  · subst hne
    cases head <;> decide
  cases head with
  | absolute =>
    have htext : ofParts .absolute body = ⟨"/".intercalate ("" :: body)⟩ := by
      obtain ⟨y, rest, rfl⟩ := List.exists_cons_of_ne_nil hne
      rw [ofParts, Path.mk.injEq, ← String.toList_inj]
      simp [String.toList_intercalate]
    have hpieces : (ofParts .absolute body).pieces = "" :: body := by
      rw [htext]
      exact pieces_intercalate (List.cons_ne_nil "" body) (by simpa using hbody)
    rw [components_eq_textComponents (by rw [hpieces]; simpa using hne), hpieces]
    rfl
  | here =>
    have hpieces : (ofParts .here body).pieces = "." :: body :=
      pieces_intercalate (List.cons_ne_nil "." body) (by simpa using hbody)
    rw [components_eq_textComponents (by rw [hpieces]; simp), hpieces]
    rfl
  | relative =>
    have hpieces : (ofParts .relative body).pieces = body := pieces_intercalate hne hbody
    obtain ⟨y, rest, rfl⟩ := List.exists_cons_of_ne_nil hne
    have hy : isVoid y = false := hhead rfl y rfl
    have hempty : y ≠ "" := by
      rintro rfl
      exact absurd hy (by decide)
    rw [components_eq_textComponents (by rw [hpieces]; simp [hempty]), hpieces,
      textComponents_of_not_isVoid hy]
    rfl

/-- Void pieces at the end of a body stand for nothing. -/
theorem bodyComponents_trimBody (body : List String) :
    bodyComponents (trimBody body) = bodyComponents body := by
  change bodyComponents (body.rdropWhile isVoid) = bodyComponents body
  induction body using List.reverseRecOn with
  | nil => rfl
  | append_singleton body x ih =>
    by_cases hx : isVoid x = true
    · rw [List.rdropWhile_concat_pos isVoid body x hx, ih, bodyComponents_append,
        bodyComponents_of_isVoid hx, List.append_nil]
    · rw [List.rdropWhile_concat_neg isVoid body x hx]

theorem isPrefix_trimBody (body : List String) : trimBody body <+: body :=
  List.rdropWhile_prefix isVoid body

/-- A trimmed body is empty or ends with a piece that counts. -/
theorem trimBody_cases (body : List String) :
    trimBody body = [] ∨ ∃ init x, trimBody body = init ++ [x] ∧ isVoid x = false := by
  by_cases hnil : trimBody body = []
  · exact .inl hnil
  · have hlast : ¬ isVoid ((trimBody body).getLast hnil) = true :=
      List.rdropWhile_last_not isVoid body hnil
    exact .inr ⟨_, _, (List.dropLast_append_getLast hnil).symm, by simpa using hlast⟩

/-- A path without a parent is empty or the root, and any other is its parent with one component
more. -/
theorem parent?_cases (p : Path) :
    (p.parent? = none ∧ (p.components = [] ∨ p.components = [.root])) ∨
    ∃ q c, p.parent? = some q ∧ p.components = q.components ++ [c] := by
  have hcomponents := p.components_eq
  rw [← bodyComponents_trimBody] at hcomponents
  rcases trimBody_cases p.parts.2 with hnil | ⟨init, x, hbody, hx⟩
  · -- nothing but the head is left
    rw [hnil] at hcomponents
    cases hhead : p.parts.1 with
    | absolute =>
      rw [hhead] at hcomponents
      exact .inl ⟨by simp [parent?, hhead, hnil], .inr hcomponents⟩
    | here =>
      rw [hhead] at hcomponents
      exact .inr ⟨⟨""⟩, .here, by simp [parent?, hhead, hnil], hcomponents⟩
    | relative =>
      rw [hhead] at hcomponents
      exact .inl ⟨by simp [parent?, hhead, hnil], .inl hcomponents⟩
  · have hparent : p.parent? = some (ofParts p.parts.1 (trimBody init)) := by
      simp [parent?, hbody]
    have hinit : trimBody init <+: p.parts.2 :=
      (isPrefix_trimBody init).trans ((List.prefix_append init [x]).trans
        (hbody ▸ isPrefix_trimBody p.parts.2))
    have hq : (ofParts p.parts.1 (trimBody init)).components =
        p.parts.1.components ++ bodyComponents init := by
      rw [← bodyComponents_trimBody init]
      refine components_ofParts (fun y hy => noSeparator_of_mem_body (hinit.subset hy)) ?_
      intro hrel y hy
      obtain ⟨rest, hrest⟩ := hinit
      refine not_isVoid_of_head?_body hrel y ?_
      rw [← hrest, List.head?_append, Option.mem_def.1 hy]
      rfl
    refine .inr ⟨_, componentOf x, hparent, ?_⟩
    rw [hcomponents, hbody, hq, bodyComponents_append, bodyComponents_of_not_isVoid hx,
      List.append_assoc]

/-! ## File names -/

theorem fileName?_eq_some_iff :
    p.fileName? = some name ↔ p.components.getLast? = some (.name name) := by
  rw [fileName?]
  split
  next text hlast => simp [hlast]
  next hother =>
    constructor
    · intro h
      cases h
    · intro h
      exact absurd h (hother name)

/-- The name of a file is one that can stand below a path. -/
theorem isFileName_of_fileName? (h : p.fileName? = some name) : IsFileName name := by
  have hmem : Component.name name ∈ bodyComponents p.parts.2 := by
    have hmem := List.mem_of_getLast? (fileName?_eq_some_iff.1 h)
    rw [components_eq, List.mem_append] at hmem
    rcases hmem with hhead | hbody
    · cases hp : p.parts.1 <;> simp [hp, Head.components] at hhead
    · exact hbody
  obtain ⟨x, hx, hname⟩ := List.mem_map.1 hmem
  obtain ⟨hx, hvoid⟩ := List.mem_filter.1 hx
  rw [componentOf] at hname
  split at hname
  next => cases hname
  next hup =>
    cases hname
    exact ⟨noSeparator_of_mem_body hx, by simpa using hvoid, hup⟩

/-- A path with a file name is its directory with this name below. -/
theorem exists_parent_of_fileName? (h : p.fileName? = some name) :
    ∃ q, p.parent? = some q ∧ p.components = q.components ++ [.name name] := by
  rw [fileName?_eq_some_iff] at h
  rcases p.parent?_cases with ⟨-, hnil | hroot⟩ | ⟨q, c, hq, hcomponents⟩
  · simp [hnil] at h
  · simp [hroot] at h
  · rw [hcomponents, List.getLast?_concat, Option.some.injEq] at h
    exact ⟨q, hq, by rw [hcomponents, h]⟩

end VariantBuild.Path
