import TaskWatch.Api.Client
import TaskWatch.Proofs.Text.Trimming

/-!
# The addresses that links mean

A link is an address of its own, or goes on from the address of the server.  The slashes between the
two are put right, which takes those at the end of the server's address away; an address of nothing
but a protocol and slashes passes the check of the settings and loses the two that belong to the
protocol.

* `BareProtocol`: such an address.  `bareProtocol_or_isAbsolute`: every other one stays absolute.
* `Client.isAbsolute_resolve_iff`: when a link means an absolute address.
* `Client.resolve_resolve_iff`: when a meaning stays as it is.
* `Client.links_mean_addresses`: what this comes to for settings that pass the check.
* `Client.bare_protocol_is_lost`: settings that pass the check and links that mean no address.
-/

namespace TaskWatch.Api

open TaskWatch.Text

/-! ## Absolute addresses -/

def protocols : List String := ["http:", "https:"]

theorem isAbsolute_iff {s : String} :
    isAbsolute s = true ↔ ∃ p ∈ protocols, ∃ rest, s = p ++ "//" ++ rest := by
  have hfront : ∀ p : String, startsWith s (p ++ "//") = true ↔ ∃ rest, s = p ++ "//" ++ rest := by
    intro p
    rw [startsWith, List.isPrefixOf_iff_prefix]
    constructor
    · rintro ⟨rest, hrest⟩
      refine ⟨String.ofList rest, String.toList_inj.mp ?_⟩
      rw [String.toList_append, String.toList_ofList, hrest]
    · rintro ⟨rest, rfl⟩
      exact ⟨rest.toList, String.toList_append.symm⟩
  have hsplit : isAbsolute s = (startsWith s ("http:" ++ "//") ||
    startsWith s ("https:" ++ "//")) := rfl
  rw [hsplit, Bool.or_eq_true, hfront, hfront]
  simp [protocols]

theorem isAbsolute_append {s : String} (h : isAbsolute s = true) (t : String) :
    isAbsolute (s ++ t) = true := by
  obtain ⟨p, hp, rest, rfl⟩ := isAbsolute_iff.mp h
  exact isAbsolute_iff.mpr ⟨p, hp, rest ++ t, by rw [String.append_assoc]⟩

/-- An address of a protocol and slashes. -/
def BareProtocol (s : String) : Prop := ∃ p ∈ protocols, ∃ n, s = p ++ slashes n

theorem trimEndSlashes_bare {p : String} (hp : p ∈ protocols) (n : Nat) :
    trimEndSlashes (p ++ slashes n) = p := by
  have hself : ∀ p ∈ protocols, trimEndSlashes p = p := by decide
  rw [trimEndSlashes_append_slashes, hself p hp]

/-- Without its last slashes an address is still absolute, unless there is nothing else. -/
theorem bareProtocol_or_isAbsolute {s : String} (h : isAbsolute s = true) :
    BareProtocol s ∨ isAbsolute (trimEndSlashes s) = true := by
  obtain ⟨p, hp, rest, rfl⟩ := isAbsolute_iff.mp h
  by_cases hall : ∀ c ∈ rest.toList, c = '/'
  · refine Or.inl ⟨p, hp, 2 + rest.toList.length, ?_⟩
    have htwo : "//" = slashes 2 := rfl
    rw [htwo, eq_slashes hall, String.append_assoc, slashes_append, toList_slashes,
      List.length_replicate]
  · have hexists : ∃ c ∈ rest.toList, c ≠ '/' := by simpa using hall
    exact Or.inr (isAbsolute_iff.mpr ⟨p, hp, trimEndSlashes rest, trimEndSlashes_append _ hexists⟩)

/-- Between a protocol and a text that begins with no slash, one slash is too few. -/
theorem isAbsolute_one_slash {p s : String} (hp : p ∈ protocols) (hs : s.toList.head? ≠ some '/') :
    isAbsolute (p ++ "/" ++ s) = false := by
  rw [Bool.eq_false_iff]
  intro h
  obtain ⟨q, hq, rest, heq⟩ := isAbsolute_iff.mp h
  have hlist := congrArg String.toList heq
  simp only [String.toList_append] at hlist
  simp only [protocols, List.mem_cons, List.not_mem_nil, or_false] at hp hq
  rcases hp with rfl | rfl <;> rcases hq with rfl | rfl
  case inl.inl | inr.inr =>
    have hslash : s.toList = '/' :: rest.toList := by simpa using hlist
    exact hs (by rw [hslash]; rfl)
  all_goals simp at hlist

theorem isAbsolute_of_mem_protocols {p : String} (hp : p ∈ protocols) : isAbsolute p = false := by
  have hall : ∀ p ∈ protocols, isAbsolute p = false := by decide
  exact hall p hp

theorem isAbsolute_trimEndSlashes_iff {s : String} (h : isAbsolute s = true) :
    isAbsolute (trimEndSlashes s) = true ↔ ¬BareProtocol s := by
  constructor
  · rintro htrim ⟨p, hp, n, rfl⟩
    rw [trimEndSlashes_bare hp, isAbsolute_of_mem_protocols hp] at htrim
    cases htrim
  · exact (bareProtocol_or_isAbsolute h).resolve_left

/-! ## Links -/

namespace Client

theorem connect_eq_ok_iff {s : Settings} {c : Client} : connect s = .ok c ↔
    s.check = .ok () ∧ c = ⟨trimEndSlashes s.endpoint, s.username, s.password⟩ := by
  rw [connect]
  cases s.check with
  | error e => simp [bind, Except.bind]
  | ok => simp [bind, Except.bind, eq_comm]

section Resolve

variable {s : Settings} {c : Client} {href : String}

theorem resolve_of_isAbsolute (h : isAbsolute href = true) : c.resolve href = href := by
  rw [resolve, if_pos h]

theorem resolve_of_relative (h : isAbsolute href = false) :
    c.resolve href = c.endpoint ++ "/" ++ trimFrontSlashes href := by
  rw [resolve, if_neg (Bool.eq_false_iff.mp h)]

theorem endpoint_of_connect (h : connect s = .ok c) :
    isAbsolute s.endpoint = true ∧ c.endpoint = trimEndSlashes s.endpoint := by
  obtain ⟨hcheck, rfl⟩ := connect_eq_ok_iff.mp h
  exact ⟨(Settings.check_eq_ok_iff.mp hcheck).1, rfl⟩

/-- A link means an absolute address if it is one, or if the server has more than a protocol. -/
theorem isAbsolute_resolve_iff (h : connect s = .ok c) :
    isAbsolute (c.resolve href) = true ↔ isAbsolute href = true ∨ ¬BareProtocol s.endpoint := by
  obtain ⟨habs, hend⟩ := endpoint_of_connect h
  by_cases hhref : isAbsolute href = true
  · rw [resolve_of_isAbsolute hhref]
    exact iff_of_true hhref (Or.inl hhref)
  · rw [resolve_of_relative (Bool.eq_false_iff.mpr hhref), or_iff_right hhref, hend]
    by_cases hbare : BareProtocol s.endpoint
    · obtain ⟨p, hp, n, hs⟩ := hbare
      rw [hs, trimEndSlashes_bare hp, isAbsolute_one_slash hp (head?_trimFrontSlashes href)]
      exact iff_of_false Bool.false_ne_true fun hnot => hnot ⟨p, hp, n, rfl⟩
    · have htrim := (isAbsolute_trimEndSlashes_iff habs).mpr hbare
      rw [String.append_assoc]
      exact iff_of_true (isAbsolute_append htrim _) hbare

/-- What a link means keeps its meaning exactly if it is absolute. -/
theorem resolve_resolve_iff (h : connect s = .ok c) :
    c.resolve (c.resolve href) = c.resolve href ↔ isAbsolute (c.resolve href) = true := by
  refine ⟨fun heq => ?_, resolve_of_isAbsolute⟩
  by_contra hnot
  have hrelative : isAbsolute href = false :=
    Bool.eq_false_iff.mpr fun habs => hnot ((isAbsolute_resolve_iff h).mpr (Or.inl habs))
  obtain ⟨p, hp, n, hs⟩ : BareProtocol s.endpoint :=
    by_contra fun hbare => hnot ((isAbsolute_resolve_iff h).mpr (Or.inr hbare))
  have hend : c.endpoint = p := by rw [(endpoint_of_connect h).2, hs, trimEndSlashes_bare hp]
  have hhead : (c.resolve href).toList.head? ≠ some '/' := by
    rw [resolve_of_relative hrelative, hend]
    simp only [protocols, List.mem_cons, List.not_mem_nil, or_false] at hp
    rcases hp with rfl | rfl <;> simp
  -- The protocol comes once more with each resolving, so the text gets longer.
  have hlen := congrArg String.length heq
  rw [resolve_of_relative (Bool.eq_false_iff.mpr hnot), trimFrontSlashes_of_head? hhead] at hlen
  simp at hlen

end Resolve

/-- **What links mean.**  A server with acceptable settings can be connected to.  A link means an
absolute address, and one that keeps its meaning, if it is absolute itself or if the address of the
server is more than a protocol and slashes.  An absolute link means itself.  How many slashes end
the address of the server, and how many begin a link that is not absolute, makes no difference. -/
theorem links_mean_addresses {s : Settings} (h : s.check = .ok ()) :
    ∃ c, connect s = .ok c ∧
      (∀ href, isAbsolute (c.resolve href) = true ↔
        isAbsolute href = true ∨ ¬BareProtocol s.endpoint) ∧
      (∀ href, c.resolve (c.resolve href) = c.resolve href ↔
        isAbsolute href = true ∨ ¬BareProtocol s.endpoint) ∧
      (∀ href, isAbsolute href = true → c.resolve href = href) ∧
      (∀ (s' : Settings) (c' : Client) (base path : String) (m n i j : Nat), connect s' = .ok c' →
        s.endpoint = base ++ slashes m → s'.endpoint = base ++ slashes n →
        isAbsolute (slashes i ++ path) = false → isAbsolute (slashes j ++ path) = false →
        c.resolve (slashes i ++ path) = c'.resolve (slashes j ++ path)) := by
  have hconnect := connect_eq_ok_iff.mpr ⟨h, rfl⟩
  refine ⟨_, hconnect, fun href => isAbsolute_resolve_iff hconnect, fun href => ?_,
    fun href => resolve_of_isAbsolute, ?_⟩
  · rw [resolve_resolve_iff hconnect, isAbsolute_resolve_iff hconnect]
  · intro s' c' base path m n i j hconnect' hs hs' hi hj
    rw [resolve_of_relative hi, resolve_of_relative hj, trimFrontSlashes_slashes_append,
      trimFrontSlashes_slashes_append, (endpoint_of_connect hconnect').2, hs',
      trimEndSlashes_append_slashes]
    show trimEndSlashes s.endpoint ++ "/" ++ _ = _
    rw [hs, trimEndSlashes_append_slashes]

def settingsFor (endpoint : String) : Settings := ⟨endpoint, "admin", "", 30⟩

/-- Slashes at the end of the server's address and in front of a link. -/
theorem links_mean_addresses_past_slashes :
    ∃ c c', connect (settingsFor "https://host/api//") = .ok c ∧
      connect (settingsFor "https://host/api") = .ok c' ∧
      c.resolve "///tasks/1" = c'.resolve "tasks/1" ∧
      isAbsolute (c.resolve "///tasks/1") = true ∧
      c.resolve (c.resolve "///tasks/1") = c.resolve "///tasks/1" := by
  have hcheck : (settingsFor "https://host/api//").check = .ok () := rfl
  have hconnect' : connect (settingsFor "https://host/api") = .ok _ := rfl
  have hbare : ¬BareProtocol "https://host/api//" :=
    (isAbsolute_trimEndSlashes_iff (by decide)).mp (by decide)
  obtain ⟨c, hconnect, habs, hagain, -, hsame⟩ := links_mean_addresses hcheck
  exact ⟨c, _, hconnect, hconnect',
    hsame _ _ "https://host/api" "tasks/1" 2 0 3 0 hconnect' rfl rfl (by decide) (by decide),
    (habs _).mpr (Or.inr hbare), (hagain _).mpr (Or.inr hbare)⟩

/-- An address of a protocol and its two slashes is acceptable, and no link goes on from it to an
address. -/
theorem bare_protocol_is_lost :
    ∃ c, (settingsFor "http://").check = .ok () ∧ connect (settingsFor "http://") = .ok c ∧
      c.resolve "tasks/1" = "http:/tasks/1" ∧ isAbsolute (c.resolve "tasks/1") = false ∧
      c.resolve (c.resolve "tasks/1") = "http:/http:/tasks/1" :=
  ⟨_, rfl, rfl, by decide, by decide, by decide⟩

end Client
end TaskWatch.Api
