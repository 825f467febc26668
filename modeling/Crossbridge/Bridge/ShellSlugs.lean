import Crossbridge.Bridge.Slugs
import Crossbridge.Direnv.Slug

/-!
The slug that the shell function reads off a URL and the one that the server does.

The function mirrors the server by parameter expansions. It drops one slash at the end where the
server drops all, it does not trim the last segment, it takes the host for the last segment if there
is nothing else, and what is a blank at the ends of the URL depends on the locale. `parseSlug_shell_iff`
says for which URLs the two agree.
-/

namespace Crossbridge.Bridge.ShellSlugs

open Text Slugs
open Server (isMark)
open Direnv (Ctype)

/-- The URLs, without the blanks that the shell knows, that both read alike.
With a host and no path: the shell takes the host for the path, and nothing must be left of it.
With two slashes at the end: nothing is left for the shell, nor must be for the server.
Else the last segment has no blanks around it. -/
def AlikeShell (url : List Char) : Prop :=
  match Server.pathPart url with
  | none =>
    beforeFirst isMark (Direnv.afterFirst "://".toList url) = [] ∨
      beforeFirst isMark (Direnv.afterFirst "://".toList url) = git
  | some path =>
    if ['/', '/'] <:+ beforeFirst isMark path then
      trim (Server.lastSegment path) = [] ∨ trim (Server.lastSegment path) = git
    else trim (Direnv.lastSegment path) = Direnv.lastSegment path

/-- The slug of the server, of a URL that is taken as it is; nothing if there is none. -/
def serverSlug (url : List Char) : List Char :=
  match Server.pathPart url with
  | none => []
  | some path => stripEnd (trim (Server.lastSegment path)) git

/-- The slug of the shell, of a URL that is taken as it is. -/
def shellSlug (url : List Char) : List Char := stripEnd (Direnv.lastSegment (Direnv.pathPart url)) git

/-! ### One URL, taken as it is -/

section Same

variable {url path seg : List Char}

/-- The two have the same path part, but for a URL that has none. -/
lemma pathPart_shell (h : Server.pathPart url = some path) : Direnv.pathPart url = path := by
  unfold Server.pathPart at h
  unfold Direnv.pathPart Direnv.afterFirst
  split at h
  · rename_i hscheme
    rw [if_pos hscheme, h]
    rfl
  · rename_i hscheme
    rw [if_neg hscheme]
    split at h
    · rename_i a rhs hcut
      obtain rfl := Option.some.inj h
      rw [if_pos ⟨a, rhs, (eq_append_of_dropInfix hcut).symm⟩, hcut]
      rfl
    · rename_i hcut
      obtain rfl := Option.some.inj h
      rw [if_neg (dropInfix_eq_none_iff.mp hcut)]

/-- Without a path, the shell has the host. -/
lemma shellSlug_of_none (h : Server.pathPart url = none) :
    shellSlug url = stripEnd (beforeFirst isMark (Direnv.afterFirst "://".toList url)) git := by
  have hhost : Direnv.pathPart url = Direnv.afterFirst "://".toList url ∧
      ∀ c ∈ Direnv.afterFirst "://".toList url, c ≠ '/' := by
    unfold Server.pathPart at h
    split at h
    · rename_i hscheme
      simp only [Option.map_eq_none_iff] at h
      rw [Direnv.pathPart, if_pos hscheme]
      refine ⟨?_, ?_⟩
      · rw [Direnv.afterFirst, Direnv.afterFirst, h]
        rfl
      · rintro c hc rfl
        refine dropInfix_eq_none_iff.mp h ?_
        obtain ⟨a, b, hab⟩ := List.append_of_mem hc
        exact ⟨a, b, by rw [List.append_assoc, List.singleton_append]; exact hab.symm⟩
    · split at h <;> cases h
  obtain ⟨hpath, hslash⟩ := hhost
  have hbefore : ∀ c ∈ beforeFirst isMark (Direnv.afterFirst "://".toList url), c ≠ '/' :=
    fun c hc => hslash c (List.takeWhile_subset _ hc)
  have hstrip : stripEnd (beforeFirst isMark (Direnv.afterFirst "://".toList url)) ['/'] =
      beforeFirst isMark (Direnv.afterFirst "://".toList url) := by
    refine stripEnd_of_not_suffix fun hsuffix => ?_
    exact hbefore _ (hsuffix.subset List.mem_cons_self) rfl
  rw [shellSlug, hpath, Direnv.lastSegment, hstrip,
    afterLast_eq_self fun c hc => decide_eq_false (hbefore c hc)]

/-- With two slashes at the end, the shell has nothing. -/
lemma lastSegment_shell_of_slashes (h : ['/', '/'] <:+ beforeFirst isMark path) :
    Direnv.lastSegment path = [] := by
  obtain ⟨a, ha⟩ := h
  have hone : a ++ ['/', '/'] = (a ++ ['/']) ++ ['/'] := by simp
  rw [Direnv.lastSegment, ← ha, hone, stripEnd_append]
  exact afterLast_concat rfl

/-- Else the two have the same last segment. -/
lemma lastSegment_shell (h : ¬ ['/', '/'] <:+ beforeFirst isMark path) :
    Direnv.lastSegment path = Server.lastSegment path := by
  unfold Direnv.lastSegment Server.lastSegment
  congr 1
  by_cases hslash : ['/'] <:+ beforeFirst isMark path
  · obtain ⟨a, ha⟩ := hslash
    rw [← ha] at h ⊢
    rw [stripEnd_append, List.rdropWhile_concat_pos _ _ _ (by decide), List.rdropWhile_eq_self_iff.mpr]
    intro hne hend
    obtain ⟨b, hb⟩ : ['/'] <:+ a := by
      refine List.singleton_suffix_iff_getLast?_eq_some.mpr ?_
      rw [List.getLast?_eq_some_getLast hne, of_decide_eq_true hend]
    exact h ⟨b, by rw [← hb]; simp⟩
  · rw [stripEnd_of_not_suffix hslash, List.rdropWhile_eq_self_iff.mpr]
    intro hne hend
    refine hslash (List.singleton_suffix_iff_getLast?_eq_some.mpr ?_)
    rw [List.getLast?_eq_some_getLast hne, of_decide_eq_true hend]

/-- **A last segment** makes the same slug with and without the blanks around it only if there are
none. -/
theorem stripEnd_trim_iff : stripEnd seg git = stripEnd (trim seg) git ↔ trim seg = seg := by
  constructor
  · intro h
    obtain ⟨a, b, hseg, ha, hb⟩ := exists_eq_append_trim seg
    cases b using List.reverseRecOn with
    | nil =>
      rw [List.append_nil] at hseg
      cases a using List.reverseRecOn with
      | nil => exact hseg.symm
      | append_singleton a x =>
        -- the blank before it stays
        have hx : x ∉ git := not_mem_git (by decide) (ha x (by simp))
        have hlonger : stripEnd (a ++ x :: trim seg) git ≠ stripEnd (trim seg) git :=
          stripEnd_append_cons_ne hx
        rw [List.append_cons, ← hseg] at hlonger
        exact absurd h hlonger
    | append_singleton b x =>
      -- no ending is dropped, and the blank behind it stays
      have hx : x ∉ git := not_mem_git (by decide) (hb x (by simp))
      rw [← List.append_assoc] at hseg
      have hkeep : stripEnd (a ++ trim seg ++ b ++ [x]) git = a ++ trim seg ++ b ++ [x] :=
        stripEnd_concat (by decide) hx
      rw [← hseg] at hkeep
      have hlen := congrArg List.length hseg
      have hle : (stripEnd (trim seg) git).length ≤ (trim seg).length := stripEnd_prefix.length_le
      rw [← h, hkeep] at hle
      simp only [List.length_append, List.length_singleton] at hlen
      omega
  · intro h
    rw [h]

/-- **A URL that is taken as it is.** -/
theorem shellSlug_eq_iff (url : List Char) : shellSlug url = serverSlug url ↔ AlikeShell url := by
  unfold serverSlug AlikeShell
  cases hpath : Server.pathPart url with
  | none =>
    simp only
    rw [shellSlug_of_none hpath, stripEnd_eq_nil_iff]
  | some path =>
    simp only
    rw [shellSlug, pathPart_shell hpath]
    split
    · rename_i hslashes
      rw [lastSegment_shell_of_slashes hslashes, stripEnd_eq_nil_iff.mpr (Or.inl rfl), eq_comm,
        stripEnd_eq_nil_iff]
    · rename_i hslashes
      rw [← lastSegment_shell hslashes]
      exact stripEnd_trim_iff

end Same

/-! ### A URL with blanks around it -/

section Blanks

variable {a b c url path : List Char}

lemma not_mem_of_blanks (pat : List Char) (hpat : pat.all (fun x => !isWhitespace x) = true)
    (ha : ∀ x ∈ a, isWhitespace x = true) : ∀ x ∈ a, x ∉ pat := by
  intro x hx hin
  have hnot := List.all_eq_true.mp hpat x hin
  rw [ha x hx] at hnot
  cases hnot

lemma mark_of_blanks (ha : ∀ x ∈ a, isWhitespace x = true) : ∀ x ∈ a, isMark x = false := by
  intro x hx
  have hnot := not_mem_of_blanks ['?', '#'] (by decide) ha x hx
  simp only [List.mem_cons, List.not_mem_nil, or_false, not_or] at hnot
  simp [isMark, hnot.1, hnot.2]

lemma slash_of_blanks (ha : ∀ x ∈ a, isWhitespace x = true) : ∀ x ∈ a, decide (x = '/') = false := by
  intro x hx
  have hnot := not_mem_of_blanks ['/'] (by decide) ha x hx
  simpa using hnot

/-- The path part has the blanks at the end of the URL, and may have those at its beginning. -/
theorem pathPart_blanks (url : List Char) (ha : ∀ x ∈ a, isWhitespace x = true)
    (hb : ∀ x ∈ b, isWhitespace x = true) :
    match Server.pathPart url with
    | none => Server.pathPart (a ++ url ++ b) = none
    | some path => ∃ c, (∀ x ∈ c, isWhitespace x = true) ∧
        Server.pathPart (a ++ url ++ b) = some (c ++ path ++ b) := by
  have hcut : ∀ pat : List Char, pat ≠ [] → pat.all (fun x => !isWhitespace x) = true →
      ∀ a' l : List Char, (∀ x ∈ a', isWhitespace x = true) → (a' ++ l ++ b).dropInfix? pat =
        (l.dropInfix? pat).map fun r => (a' ++ r.1, r.2 ++ b) := by
    intro pat hne hpat a' l ha'
    exact dropInfix_append hne (not_mem_of_blanks pat hpat ha') (not_mem_of_blanks pat hpat hb)
  have hscheme := hcut "://".toList (by decide) (by decide) a url ha
  have hcolon := hcut [':'] (by decide) (by decide) a url ha
  unfold Server.pathPart
  cases hs : url.dropInfix? "://".toList with
  | some r =>
    rw [hs, Option.map_some] at hscheme
    have hin : "://".toList <:+: url := ⟨r.1, r.2, (eq_append_of_dropInfix hs).symm⟩
    have hin' : "://".toList <:+: a ++ url ++ b := ⟨_, _, (eq_append_of_dropInfix hscheme).symm⟩
    have hslash := hcut ['/'] (by decide) (by decide) [] r.2 (by simp)
    rw [List.nil_append] at hslash
    rw [if_pos hin, if_pos hin', hscheme]
    simp only [Option.map_some, Option.getD_some]
    rw [hslash]
    cases r.2.dropInfix? ['/'] with
    | none => rfl
    | some q => exact ⟨[], by simp, rfl⟩
  | none =>
    rw [hs, Option.map_none] at hscheme
    rw [if_neg (dropInfix_eq_none_iff.mp hs), if_neg (dropInfix_eq_none_iff.mp hscheme), hcolon]
    cases url.dropInfix? [':'] with
    | none => exact ⟨a, ha, rfl⟩
    | some q => exact ⟨[], by simp, rfl⟩

/-- The last segment is the same up to blanks, if the blanks at the end are cut off with a query. -/
lemma trim_lastSegment_blanks (path : List Char) (hc : ∀ x ∈ c, isWhitespace x = true)
    (hb : b = [] ∨ path.any isMark = true) :
    trim (Server.lastSegment (c ++ path ++ b)) = trim (Server.lastSegment path) := by
  have hbefore : beforeFirst isMark (c ++ path ++ b) = c ++ beforeFirst isMark path := by
    unfold beforeFirst
    rw [List.append_assoc, List.takeWhile_append_of_pos fun x hx => by simp [mark_of_blanks hc x hx]]
    congr 1
    rcases hb with rfl | hmark
    · rw [List.append_nil]
    · obtain ⟨x, hx, hm⟩ := List.any_eq_true.mp hmark
      rw [List.takeWhile_append, if_neg]
      intro hlen
      have hall := List.takeWhile_eq_self_iff.mp
        ((List.takeWhile_prefix fun x => !isMark x).eq_of_length hlen) x hx
      rw [hm] at hall
      cases hall
  unfold Server.lastSegment
  rw [hbefore, rdropWhile_append_of_none (slash_of_blanks hc)]
  by_cases hslash : ∃ x ∈ (beforeFirst isMark path).rdropWhile (· = '/'), decide (x = '/') = true
  · rw [afterLast_append_of_mem hslash]
  · have hnone : ∀ x ∈ (beforeFirst isMark path).rdropWhile (· = '/'), decide (x = '/') = false :=
      fun x hx => Bool.eq_false_iff.mpr fun h => hslash ⟨x, hx, h⟩
    rw [afterLast_append hnone, afterLast_eq_self hnone,
      afterLast_eq_self (slash_of_blanks hc), trim_append_left hc]

/-- Without a query, and a slash at its end, a path does not get a shorter last segment by what is put
before it. -/
lemma length_lastSegment_le (hmark : path.any isMark = false) (hslash : ¬ ['/'] <:+ c ++ path) :
    (Server.lastSegment path).length ≤ (afterLast (· = '/') (c ++ path)).length := by
  have hbefore : beforeFirst isMark path = path :=
    beforeFirst_eq_self fun y hy => Bool.eq_false_iff.mpr (List.any_eq_false.mp hmark y hy)
  have hend : path.rdropWhile (· = '/') = path := by
    refine List.rdropWhile_eq_self_iff.mpr fun hne hend => hslash ?_
    refine List.IsSuffix.trans ?_ (List.suffix_append c path)
    rw [List.singleton_suffix_iff_getLast?_eq_some, List.getLast?_eq_some_getLast hne,
      of_decide_eq_true hend]
  rw [Server.lastSegment, hbefore, hend]
  by_cases hin : ∃ y ∈ path, decide (y = '/') = true
  · rw [afterLast_append_of_mem hin]
  · have hnone : ∀ y ∈ path, decide (y = '/') = false :=
      fun y hy => Bool.eq_false_iff.mpr fun h => hin ⟨y, hy, h⟩
    rw [afterLast_append hnone, afterLast_eq_self hnone, List.length_append]
    omega

/-- **Blanks at the end of a path** without a query are a part of the shell's last segment, and not of
the server's. -/
theorem blanks_behind (path : List Char) (hc : ∀ x ∈ c, isWhitespace x = true)
    (hb : ∀ x ∈ b, isWhitespace x = true) (hne : b ≠ []) (hmark : path.any isMark = false) :
    ¬ ['/', '/'] <:+ beforeFirst isMark (c ++ path ++ b) ∧
    trim (Direnv.lastSegment (c ++ path ++ b)) ≠ Direnv.lastSegment (c ++ path ++ b) ∧
    stripEnd (Direnv.lastSegment (c ++ path ++ b)) git ≠
      stripEnd (trim (Server.lastSegment path)) git := by
  obtain ⟨b₀, x, rfl⟩ := (List.eq_nil_or_concat' b).resolve_left hne
  have hx : isWhitespace x = true := hb x (by simp)
  have hbefore : beforeFirst isMark (c ++ path ++ (b₀ ++ [x])) = c ++ path ++ (b₀ ++ [x]) := by
    refine beforeFirst_eq_self fun y hy => ?_
    rcases List.mem_append.mp hy with hy | hy
    · rcases List.mem_append.mp hy with hy | hy
      · exact mark_of_blanks hc y hy
      · exact Bool.eq_false_iff.mpr (List.any_eq_false.mp hmark y hy)
    · exact mark_of_blanks hb y hy
  have hslash : ¬ ['/'] <:+ c ++ path ++ (b₀ ++ [x]) := by
    rw [← List.append_assoc, List.singleton_suffix_append_singleton_iff]
    rintro rfl
    cases hx
  have hsegment : Direnv.lastSegment (c ++ path ++ (b₀ ++ [x])) =
      afterLast (· = '/') (c ++ path) ++ (b₀ ++ [x]) := by
    rw [Direnv.lastSegment, hbefore, stripEnd_of_not_suffix hslash,
      afterLast_append (slash_of_blanks hb)]
  rw [hbefore, hsegment]
  refine ⟨fun h => hslash ((by decide : ['/'] <:+ ['/', '/']).trans h), fun h => ?_, fun h => ?_⟩
  · have hle := length_trim_le (afterLast (· = '/') (c ++ path))
    rw [← trim_append_right hb, h, List.length_append, List.length_append] at hle
    simp at hle
  · -- the server's slug would have to be as long
    rw [← List.append_assoc, stripEnd_concat (by decide) (not_mem_git (by decide) hx),
      List.append_assoc] at h
    have hpre : afterLast (· = '/') (c ++ path) ++ (b₀ ++ [x]) <+: trim (Server.lastSegment path) :=
      h ▸ stripEnd_prefix
    have hend : ¬ ['/'] <:+ c ++ path := by
      rintro ⟨t, ht⟩
      have hnil : afterLast (· = '/') (c ++ path) = [] := by
        rw [← ht]
        exact afterLast_concat rfl
      rw [hnil, List.nil_append] at hpre
      exact not_prefix_trim hb hne hpre
    have hle := length_lastSegment_le hmark hend
    have hlen := hpre.length_le.trans (length_trim_le _)
    simp only [List.length_append, List.length_singleton] at hlen
    omega

/-- **The blanks around a URL.** -/
theorem shellSlug_eq_trim_iff (url : List Char) :
    shellSlug url = serverSlug (trim url) ↔ AlikeShell url := by
  obtain ⟨a, b, hurl, ha, hb⟩ := exists_eq_append_trim url
  have hpath := pathPart_blanks (trim url) ha hb
  rw [← hurl] at hpath
  rw [← shellSlug_eq_iff]
  cases htrim : Server.pathPart (trim url) with
  | none =>
    rw [htrim] at hpath
    rw [serverSlug, serverSlug, htrim, hpath]
  | some path =>
    rw [htrim] at hpath
    obtain ⟨c, hc, hpath⟩ := hpath
    by_cases hcut : b = [] ∨ path.any isMark = true
    · rw [serverSlug, serverSlug, htrim, hpath]
      simp only
      rw [trim_lastSegment_blanks path hc hcut]
    · rw [not_or, Bool.not_eq_true] at hcut
      obtain ⟨hslashes, hsegment, hslug⟩ := blanks_behind path hc hb hcut.1 hcut.2
      have hshell : shellSlug url = stripEnd (Direnv.lastSegment (c ++ path ++ b)) git := by
        rw [shellSlug, pathPart_shell hpath]
      rw [hshell, serverSlug, serverSlug, htrim, hpath]
      refine iff_of_false hslug fun heq => hsegment ?_
      simp only at heq
      rw [← lastSegment_shell hslashes] at heq
      exact stripEnd_trim_iff.mp heq

end Blanks

/-- **The shell and the server.** In every locale, they make the same slug of a URL, or both none,
exactly if it is one that both read alike. -/
theorem parseSlug_shell_iff (loc : Ctype) (url : String) :
    Direnv.parseSlug loc url = Server.parseSlug url ↔
      AlikeShell ((url.toList.dropWhile loc.space).rdropWhile loc.space) := by
  rw [← shellSlug_eq_trim_iff]
  have htrim : trim ((url.toList.dropWhile loc.space).rdropWhile loc.space) = trim url.toList := by
    have hback : ∀ l : List Char, trim (l.rdropWhile loc.space) = trim l := by
      intro l
      conv_rhs => rw [← List.rdropWhile_append_rtakeWhile (p := loc.space) (l := l)]
      exact (trim_append_right fun x hx =>
        loc.isWhitespace_of_space x (List.mem_rtakeWhile_imp hx)).symm
    rw [hback]
    conv_rhs => rw [← List.takeWhile_append_dropWhile (p := loc.space) (l := url.toList)]
    exact (trim_append_left fun x hx => loc.isWhitespace_of_space x (List.mem_takeWhile_imp hx)).symm
  have hshell : ∀ l, (if l = [] then none else
      if stripEnd (Direnv.lastSegment (Direnv.pathPart l)) git = [] then none
      else some (String.ofList (stripEnd (Direnv.lastSegment (Direnv.pathPart l)) git))) =
      if shellSlug l = [] then none else some (String.ofList (shellSlug l)) := by
    intro l
    split
    · rename_i hnil
      rw [hnil]
      rfl
    · rfl
  have hserver : Server.parseSlug url = if serverSlug (trim url.toList) = [] then none
      else some (String.ofList (serverSlug (trim url.toList))) := by
    unfold Server.parseSlug serverSlug
    simp only
    split
    · rename_i hnil
      rw [hnil]
      rfl
    · cases Server.pathPart (trim url.toList) with
      | none => rfl
      | some path => rfl
  unfold Direnv.parseSlug
  simp only
  rw [hshell, hserver, slug_eq_iff, htrim]

/-- **A host without a path.** The shell exports a slug that the server does not derive. -/
theorem host_without_path : Direnv.parseSlug Direnv.posix "https://github.com" = some "github.com" ∧
    Server.parseSlug "https://github.com" = none := by
  decide

end Crossbridge.Bridge.ShellSlugs
