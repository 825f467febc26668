import Crossbridge.Server.Slug
import Crossbridge.Client.Slug

/-!
The slug that the server reads off a URL and the one that the client does.

Both cut the URL up by rules of their own. Where the path part has no query and does not end with a
slash, the client's slug is what is after the last slash or colon, the server's what is after the last
slash without the blanks before it (`stripEnd_segment_iff`); a slash at the end leaves the client with
nothing, and a query is a part of its slug. `parseSlug_eq_iff` says for which URLs they agree.
-/

namespace Crossbridge.Bridge.Slugs

open Text Server Client

/-- `.git` -/
abbrev git : List Char := ".git".toList

/-- The path part of a URL, as the two read it the same.
With a query: what is after the last separator of the query is the last segment, but for `.git`.
With a slash at the end: there is nothing but slashes, blanks and `.git` for the server either.
Else the last segment has no colon, and no blank before it. -/
def AlikePath (path : List Char) : Prop :=
  if path.any isMark = true then
    (fromFirst isMark path).any isSeparator = true ∧
      stripEnd (afterLast isSeparator (fromFirst isMark path)) git =
        stripEnd (trim (lastSegment path)) git
  else if path.getLast? = some '/' then
    trim (lastSegment path) = [] ∨ trim (lastSegment path) = git
  else ':' ∉ lastSegment path ∧ (lastSegment path).head?.any isWhitespace = false

/-- The URLs that both read alike. One that has no path part is nothing for the server; for the client
it must end with a separator, or with one and `.git`. -/
def Alike (url : List Char) : Prop :=
  url = [] ∨
    match pathPart url with
    | none => afterLast isSeparator url = [] ∨ afterLast isSeparator url = git
    | some path => AlikePath path

instance (path : List Char) : Decidable (AlikePath path) := by unfold AlikePath; infer_instance

instance (url : List Char) : Decidable (Alike url) := by
  unfold Alike
  split <;> infer_instance

/-! ### The last segment -/

/-- A character of a kind that `.git` has none of. -/
lemma not_mem_git {p : Char → Bool} {c : Char} (hgit : git.all (fun c => !p c) = true)
    (h : p c = true) : c ∉ git := by
  intro hc
  have hnot := List.all_eq_true.mp hgit c hc
  rw [h] at hnot
  cases hnot

/-- **A last segment.** Without the blanks before it it makes the slug that comes after its last
colon only if it has neither. -/
theorem stripEnd_segment_iff {seg : List Char} :
    stripEnd (seg.dropWhile isWhitespace) git = stripEnd (afterLast (· = ':') seg) git ↔
      ':' ∉ seg ∧ seg.head?.any isWhitespace = false := by
  by_cases hcolon : ':' ∈ seg
  · -- the server keeps the colon and what is before it
    refine iff_of_false ?_ fun h => h.1 hcolon
    obtain ⟨a, c, hc, hseg⟩ := eq_append_afterLast (p := (· = ':')) ⟨_, hcolon, decide_eq_true rfl⟩
    obtain rfl := of_decide_eq_true hc
    have hserver : seg.dropWhile isWhitespace =
        a.dropWhile isWhitespace ++ ':' :: afterLast (· = ':') seg := by
      conv_lhs => rw [hseg]
      exact dropWhile_append_cons (by decide)
    rw [hserver]
    exact stripEnd_append_cons_ne (by decide)
  · have hclient : afterLast (· = ':') seg = seg := by
      refine afterLast_eq_self fun c hc => decide_eq_false ?_
      rintro rfl
      exact hcolon hc
    rw [hclient, and_iff_right hcolon]
    cases hblank : seg.takeWhile isWhitespace with
    | nil =>
      have hserver : seg.dropWhile isWhitespace = seg := by
        conv_rhs => rw [← List.takeWhile_append_dropWhile (p := isWhitespace) (l := seg), hblank]
        rfl
      rw [hserver]
      refine iff_of_true rfl ((Option.any_eq_false _ _).mpr fun c hc => ?_)
      obtain ⟨rest, rfl⟩ := List.head?_eq_some_iff.mp hc
      by_contra hnot
      rw [List.takeWhile_cons_of_pos (by simpa using hnot)] at hblank
      cases hblank
    | cons c rest =>
      -- the client keeps the blanks
      have hne : seg.takeWhile isWhitespace ≠ [] := by simp [hblank]
      obtain ⟨a, d, hd, hseg⟩ := eq_append_dropWhile hne
      have hlonger : stripEnd (a ++ d :: seg.dropWhile isWhitespace) git ≠
          stripEnd (seg.dropWhile isWhitespace) git :=
        stripEnd_append_cons_ne (not_mem_git (by decide) hd)
      rw [← hseg] at hlonger
      refine iff_of_false hlonger.symm fun h => ?_
      have hhead : seg.head? = some c := by
        rw [← List.takeWhile_append_dropWhile (p := isWhitespace) (l := seg), hblank]
        rfl
      have hc : isWhitespace c = true := List.mem_takeWhile_imp (hblank ▸ List.mem_cons_self)
      rw [hhead, Option.any_some, hc] at h
      cases h

/-! ### The path part -/

section Path

variable {path url : List Char}

lemma lastSegment_subset : lastSegment path ⊆ beforeFirst isMark path := fun _ h =>
  (List.rdropWhile_prefix _ _).subset (afterLast_suffix.subset h)

/-- The client's two separators, one after the other. -/
lemma afterLast_isSeparator :
    afterLast isSeparator path = afterLast (· = ':') (afterLast (· = '/') path) := afterLast_afterLast.symm

/-- The client's slug comes from the path part. -/
lemma afterLast_of_pathPart (h : pathPart url = some path) :
    afterLast isSeparator url = afterLast isSeparator path := by
  rcases eq_or_append_of_pathPart h with rfl | ⟨a, c, hc, rfl⟩
  · rfl
  · refine afterLast_append_cons ?_
    rcases hc with rfl | rfl <;> rfl

lemma suffix_of_pathPart (h : pathPart url = some path) : path <:+ url := by
  rcases eq_or_append_of_pathPart h with rfl | ⟨a, c, -, rfl⟩
  · exact List.suffix_refl _
  · exact ⟨a ++ [c], by rw [List.append_assoc, List.singleton_append]⟩

/-- **With a query** the client's slug is in it. -/
lemma alike_query (h : path.any isMark = true) :
    stripEnd (trim (lastSegment path)) git = stripEnd (afterLast isSeparator path) git ↔
      (fromFirst isMark path).any isSeparator = true ∧
        stripEnd (afterLast isSeparator (fromFirst isMark path)) git =
          stripEnd (trim (lastSegment path)) git := by
  have hpath : beforeFirst isMark path ++ fromFirst isMark path = path := beforeFirst_append_fromFirst
  rw [List.any_eq_true]
  by_cases hsep : ∃ c ∈ fromFirst isMark path, isSeparator c = true
  · have hclient : afterLast isSeparator path = afterLast isSeparator (fromFirst isMark path) := by
      conv_lhs => rw [← hpath]
      exact afterLast_append_of_mem hsep
    rw [and_iff_right hsep, hclient, eq_comm]
  · -- the client keeps the mark, the server does not
    refine iff_of_false (fun heq => ?_) fun hboth => hsep hboth.1
    obtain ⟨m, b, hrest, hm⟩ := fromFirst_eq_cons (List.any_eq_true.mp h)
    have hgit : m ∉ git := not_mem_git (by decide) hm
    have hclient : m ∈ afterLast isSeparator path := by
      rw [← hpath, afterLast_append fun c hc => by simpa using fun hs => hsep ⟨c, hc, hs⟩, hrest]
      exact List.mem_append_right _ List.mem_cons_self
    have hserver : m ∉ trim (lastSegment path) := by
      intro hin
      rw [of_mem_beforeFirst (lastSegment_subset (trim_subset hin))] at hm
      cases hm
    rw [← mem_stripEnd hgit, heq, mem_stripEnd hgit] at hserver
    exact hserver hclient

/-- **The path part**, as the two read it. -/
theorem alikePath_iff {url : List Char} (h : path <:+ trim url) :
    stripEnd (trim (lastSegment path)) git = stripEnd (afterLast isSeparator path) git ↔
      AlikePath path := by
  unfold AlikePath
  split
  · rename_i hmark
    exact alike_query hmark
  · rename_i hmark
    have hbefore : beforeFirst isMark path = path :=
      beforeFirst_eq_self fun c hc => by simpa using fun hm => hmark (List.any_eq_true.mpr ⟨c, hc, hm⟩)
    split
    · rename_i hslash
      obtain ⟨a, rfl⟩ := List.getLast?_eq_some_iff.mp hslash
      have hclient : afterLast isSeparator (a ++ ['/']) = [] := afterLast_concat rfl
      rw [hclient, stripEnd_eq_nil_iff.mpr (Or.inl rfl), stripEnd_eq_nil_iff]
    · rename_i hslash
      have hlast : lastSegment path = afterLast (· = '/') path := by
        unfold lastSegment
        rw [hbefore, List.rdropWhile_eq_self_iff.mpr]
        intro hne hend
        refine hslash ?_
        rw [List.getLast?_eq_some_getLast hne, of_decide_eq_true hend]
      have hseg : lastSegment path <:+ trim url := by
        rw [hlast]
        exact afterLast_suffix.trans h
      rw [trim_of_suffix hseg, afterLast_isSeparator, ← hlast]
      exact stripEnd_segment_iff

end Path

/-- The slug of two texts is the same if they are the same, but for `.git`. -/
lemma slug_eq_iff {a b : List Char} :
    (if a = [] then none else some (String.ofList a)) = (if b = [] then none else some (String.ofList b)) ↔
      a = b := by
  constructor
  · intro h
    split at h
    · rename_i ha
      split at h
      · rename_i hb
        rw [ha, hb]
      · cases h
    · split at h
      · cases h
      · exact String.ofList_injective (Option.some.inj h)
  · rintro rfl
    rfl

lemma none_eq_slug_iff {b : List Char} :
    none = (if b = [] then none else some (String.ofList b)) ↔ b = [] := by
  by_cases hb : b = []
  · rw [if_pos hb]
    exact iff_of_true rfl hb
  · rw [if_neg hb]
    exact iff_of_false (Option.some_ne_none _).symm hb

/-- **Two readings of a URL.** The server and the client make the same slug of a URL, or both none,
exactly if it is one that both read alike. -/
theorem parseSlug_eq_iff (url : String) :
    parseSlug url = parseOriginUrl url ↔ Alike (trim url.toList) := by
  unfold parseSlug parseOriginUrl Alike
  simp only
  by_cases hnil : trim url.toList = []
  · rw [if_pos hnil, if_pos hnil]
    exact iff_of_true rfl (Or.inl hnil)
  · rw [if_neg hnil, if_neg hnil, or_iff_right hnil]
    cases hpath : pathPart (trim url.toList) with
    | none =>
      simp only
      rw [none_eq_slug_iff, stripEnd_eq_nil_iff]
    | some path =>
      simp only
      rw [slug_eq_iff, afterLast_of_pathPart hpath]
      exact alikePath_iff (suffix_of_pathPart hpath)

/-- **Two directories.** The server registers as `firmware`, and the client of the same repository has
no slug. -/
theorem trailing_slash :
    parseSlug "https://github.com/AMD-PSP/firmware/" = some "firmware" ∧
      parseOriginUrl "https://github.com/AMD-PSP/firmware/" = none := by
  decide

end Crossbridge.Bridge.Slugs
