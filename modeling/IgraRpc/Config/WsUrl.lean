import IgraRpc.Config.App
import IgraRpc.Lib.Text

/-!
# The WebSocket URL — `config/proxy.rs`

`derive_ws_url` splits a URL by hand: the scheme by two literals, the authority at the first
`/`, the port by a literal at the authority's end.

* `HttpUrl` — a URL by the generic grammar, component by component, with the text it is
  written as;
* `derivesWs_iff` — **the derived URL is the documented one exactly when the scheme is in
  lower case and the authority ends where the code looks for its end**: there is a path, or
  neither query nor fragment, or the port is not 8545 and what stands before the next `/`
  does not end like one.
-/

namespace IgraRpc

open Lib Lib.Text

-- ---------------------------------------------------------------------------
-- The code
-- ---------------------------------------------------------------------------

/-- The URL behind `https://` or `http://`, or all of it. -/
def withoutScheme (httpUrl : List Char) : List Char :=
  match stripPrefix "https://".toList httpUrl with
  | some rest => rest
  | none =>
    match stripPrefix "http://".toList httpUrl with
    | some rest => rest
    | none => httpUrl

/-- The authority with a port 8545 at its end replaced. -/
def replacePort (authority : List Char) : List Char :=
  match stripSuffix ":8545".toList authority with
  | some host => host ++ ":8546".toList
  | none => authority

/-- `derive_ws_url`. -/
def deriveWsUrl (httpUrl : String) : String :=
  let rest := withoutScheme httpUrl.toList
  let authority := rest.takeWhile (· ≠ '/')
  let path := rest.dropWhile (· ≠ '/')
  String.ofList ("ws://".toList ++ replacePort authority ++ path)

/-- `el_ws_url()`: the configured URL, or the derived one. -/
def Config.ProxyConfig.wsUrl (config : Config.ProxyConfig) : String :=
  if config.elWsUrl == "" then deriveWsUrl config.elUrl else config.elWsUrl

/-- What is derived is a `ws` URL, whatever it is derived from. -/
theorem startsWith_deriveWsUrl (httpUrl : String) :
    startsWith (deriveWsUrl httpUrl) "ws://" = true := by
  have htext : ∃ rest, (deriveWsUrl httpUrl).toList = "ws://".toList ++ rest :=
    ⟨_, String.toList_ofList.trans (List.append_assoc _ _ _)⟩
  obtain ⟨rest, hrest⟩ := htext
  rw [startsWith, hrest, List.isPrefixOf_iff_prefix]
  exact List.prefix_append _ _

/-- A validated proxy connects to a `ws` URL. -/
theorem Config.ProxyConfig.startsWith_wsUrl {config : Config.ProxyConfig}
    (h : config.validate = .ok ()) : startsWith config.wsUrl "ws://" = true := by
  unfold Config.ProxyConfig.validate at h
  obtain ⟨-, h⟩ := Config.reject_bind_eq_ok.mp h
  obtain ⟨-, h⟩ := Config.reject_bind_eq_ok.mp h
  obtain ⟨hscheme, -⟩ := Config.reject_bind_eq_ok.mp h
  unfold Config.ProxyConfig.wsUrl
  split
  · exact startsWith_deriveWsUrl config.elUrl
  · next hset =>
    have hne : (config.elWsUrl != "") = true := by simpa using hset
    simpa [hne] using hscheme

-- ---------------------------------------------------------------------------
-- URLs
-- ---------------------------------------------------------------------------

/-- A character that ends a component of the authority. -/
def isDelimiter (c : Char) : Bool := ['/', '?', '#', '@', '[', ']'].contains c

/-- A host: a name or an address, or an IP literal in brackets. -/
inductive IsHost : List Char → Prop where
  | name (text : List Char) (h : ∀ c ∈ text, isDelimiter c = false ∧ c ≠ ':') : IsHost text
  | literal (text : List Char) (h : ∀ c ∈ text, isDelimiter c = false) :
      IsHost ('[' :: text ++ [']'])

/-- An `http` or `https` URL, by components. -/
structure HttpUrl where
  scheme : List Char
  userInfo : Option (List Char)
  host : List Char
  port : Option (List Char)
  path : List Char
  query : Option (List Char)
  fragment : Option (List Char)
  isHttp : scheme.map Char.toLower = "http".toList ∨ scheme.map Char.toLower = "https".toList
  userInfo_clean : ∀ info ∈ userInfo, ∀ c ∈ info, isDelimiter c = false
  isHost : IsHost host
  port_digits : ∀ digits ∈ port, ∀ c ∈ digits, c.isDigit = true
  path_slash : path = [] ∨ ∃ rest, path = '/' :: rest
  path_clean : '?' ∉ path ∧ '#' ∉ path
  query_clean : ∀ text ∈ query, '#' ∉ text

namespace HttpUrl

/-- A component behind its mark, if it is there. -/
def marked (mark : Char) : Option (List Char) → List Char
  | none => []
  | some text => mark :: text

def userInfoText : Option (List Char) → List Char
  | none => []
  | some info => info ++ ['@']

/-- The authority, for the given port. -/
def authority (url : HttpUrl) (port : Option (List Char)) : List Char :=
  userInfoText url.userInfo ++ url.host ++ marked ':' port

/-- The query and the fragment. -/
def tail (url : HttpUrl) : List Char := marked '?' url.query ++ marked '#' url.fragment

/-- The URL as it is written. -/
def text (url : HttpUrl) : String :=
  String.ofList (url.scheme ++ "://".toList ++ url.authority url.port ++ url.path ++ url.tail)

/-- The WebSocket port beside an HTTP port. -/
def wsPort (port : Option (List Char)) : Option (List Char) :=
  if port = some "8545".toList then some "8546".toList else port

/-- The documented URL: `ws`, the WebSocket port, and everything else as it was. -/
def wsText (url : HttpUrl) : String :=
  String.ofList ("ws://".toList ++ url.authority (wsPort url.port) ++ url.path ++ url.tail)

end HttpUrl

/-- `derive_ws_url` does what it says. -/
def DerivesWs (url : HttpUrl) : Prop := deriveWsUrl url.text = url.wsText

/-- The code's split of the URL is the grammar's, as far as the port goes. -/
def SplitsAtAuthority (url : HttpUrl) : Prop :=
  (url.scheme = "http".toList ∨ url.scheme = "https".toList) ∧
    (url.path ≠ [] ∨ (url.query = none ∧ url.fragment = none) ∨
      (url.port ≠ some "8545".toList ∧
        ¬ ":8545".toList <:+ url.tail.takeWhile (· ≠ '/')))

-- ---------------------------------------------------------------------------
-- The authority
-- ---------------------------------------------------------------------------

namespace HttpUrl

theorem scheme_length (url : HttpUrl) : 0 < url.scheme.length := by
  rcases url.isHttp with h | h
  · have hlength := congrArg List.length h
    rw [List.length_map] at hlength
    exact hlength ▸ (by decide)
  · have hlength := congrArg List.length h
    rw [List.length_map] at hlength
    exact hlength ▸ (by decide)

/-- A letter of the scheme is no punctuation. -/
theorem notMem_scheme (url : HttpUrl) {c : Char} (hc : c.toLower = c)
    (hhttp : c ∉ "http".toList) (hhttps : c ∉ "https".toList) : c ∉ url.scheme := by
  intro hmem
  have hlower : c ∈ url.scheme.map Char.toLower := List.mem_map.mpr ⟨c, hmem, hc⟩
  rcases url.isHttp with h | h
  · exact hhttp (h ▸ hlower)
  · exact hhttps (h ▸ hlower)

theorem notMem_host {host : List Char} (h : IsHost host) {c : Char} (hc : isDelimiter c = true)
    (hopen : c ≠ '[') (hclose : c ≠ ']') : c ∉ host := by
  have hclean : ∀ text : List Char, (∀ c ∈ text, isDelimiter c = false) → c ∉ text := by
    intro text htext hmem
    rw [htext c hmem] at hc
    exact absurd hc (by decide)
  cases h with
  | name text h => exact hclean _ fun c hmem => (h c hmem).1
  | literal text h => simp [hopen, hclose, hclean text h]

/-- The authority ends where the grammar says: no mark of another component is in it. -/
theorem notMem_authority (url : HttpUrl) {c : Char} (hc : isDelimiter c = true)
    (hopen : c ≠ '[') (hclose : c ≠ ']') (hat : c ≠ '@') : c ∉ url.authority url.port := by
  have hcolon : c ≠ ':' := by
    rintro rfl
    exact absurd hc (by decide)
  have hinfo : c ∉ userInfoText url.userInfo := by
    cases hinfo : url.userInfo with
    | none => simp [userInfoText]
    | some info =>
      intro hmem
      rcases List.mem_append.mp hmem with hmem | hmem
      · rw [url.userInfo_clean info hinfo c hmem] at hc
        exact absurd hc (by decide)
      · exact hat (List.mem_singleton.mp hmem)
  have hport : c ∉ marked ':' url.port := by
    cases hport : url.port with
    | none => simp [marked]
    | some digits =>
      intro hmem
      rcases List.mem_cons.mp hmem with rfl | hmem
      · exact hcolon rfl
      · have hdigit := url.port_digits digits hport c hmem
        have hno : ∀ c, isDelimiter c = true → c.isDigit = false := by
          intro c hc
          simp only [isDelimiter, List.contains_iff_mem, List.mem_cons, List.not_mem_nil,
            or_false] at hc
          rcases hc with rfl | rfl | rfl | rfl | rfl | rfl <;> rfl
        rw [hno c hc] at hdigit
        exact absurd hdigit (by decide)
  simp [authority, hinfo, notMem_host url.isHost hc hopen hclose, hport]

theorem slash_notMem_authority (url : HttpUrl) : '/' ∉ url.authority url.port :=
  url.notMem_authority (by decide) (by decide) (by decide) (by decide)

/-- A host alone does not end in a port. -/
theorem not_suffix_host {host : List Char} (h : IsHost host) : ¬ ":8545".toList <:+ host := by
  intro hsuffix
  cases h with
  | name text h => exact (h ':' (hsuffix.subset (by decide))).2 rfl
  | literal text h =>
    obtain ⟨before, hbefore⟩ := hsuffix
    have hlast := congrArg List.getLast? hbefore
    rw [List.getLast?_concat, List.getLast?_append] at hlast
    have hdigit : some '5' = some ']' := hlast
    exact absurd hdigit (by decide)

/-- The authority ends in `:8545` exactly when that is its port. -/
theorem suffix_authority (url : HttpUrl) :
    ":8545".toList <:+ url.authority url.port ↔ url.port = some "8545".toList := by
  have hdrop : ":8545".toList <:+ url.authority url.port ↔
      ":8545".toList <:+ url.host ++ marked ':' url.port := by
    rw [authority]
    cases url.userInfo with
    | none => exact Iff.rfl
    | some info =>
      rw [userInfoText, List.append_assoc, List.append_assoc]
      exact suffix_append_cons (by decide)
  rw [hdrop]
  cases hport : url.port with
  | none =>
    rw [marked, List.append_nil]
    exact iff_of_false (not_suffix_host url.isHost) (by simp)
  | some digits =>
    have hcolon : ':' ∉ digits := by
      intro hmem
      exact absurd (url.port_digits digits hport ':' hmem) (by decide)
    rw [marked, Option.some.injEq]
    refine ⟨fun hsuffix => ?_, ?_⟩
    · obtain ⟨before, hbefore⟩ := hsuffix
      exact (eq_of_append_cons hbefore (by decide) hcolon).symm
    · rintro rfl
      exact List.suffix_append url.host _

/-- Replacing the port at the authority's end replaces the port. -/
theorem replacePort_authority (url : HttpUrl) :
    replacePort (url.authority url.port) = url.authority (wsPort url.port) := by
  unfold replacePort wsPort
  by_cases hport : url.port = some "8545".toList
  · have hauthority : url.authority url.port =
        (userInfoText url.userInfo ++ url.host) ++ ":8545".toList := by
      rw [authority, hport]
      rfl
    rw [if_pos hport, hauthority, stripSuffix_append]
    rfl
  · rw [if_neg hport, stripSuffix_eq_none.mpr (url.suffix_authority.not.mpr hport)]

theorem length_authority_wsPort (url : HttpUrl) :
    (url.authority (wsPort url.port)).length = (url.authority url.port).length := by
  unfold wsPort
  split
  · next hport => simp [authority, hport, marked]
  · rfl

theorem authority_wsPort_eq (url : HttpUrl) :
    url.authority (wsPort url.port) = url.authority url.port ↔
      url.port ≠ some "8545".toList := by
  unfold wsPort
  split
  · next hport =>
    refine iff_of_false ?_ (not_not.mpr hport)
    rw [authority, authority, hport, List.append_right_inj]
    decide
  · next hport => exact iff_of_true rfl hport

theorem tail_eq_nil (url : HttpUrl) :
    url.tail = [] ↔ url.query = none ∧ url.fragment = none := by
  unfold tail
  cases url.query with
  | none =>
    cases url.fragment with
    | none => simp [marked]
    | some text => simp [marked]
  | some text => simp [marked]

/-- A query or a fragment begins with its mark. -/
theorem exists_mark (url : HttpUrl) (h : url.tail ≠ []) :
    ∃ mark after, mark ∈ ['?', '#'] ∧ url.tail = mark :: after := by
  unfold tail at h ⊢
  cases hquery : url.query with
  | none =>
    cases hfragment : url.fragment with
    | none => exact absurd (by rw [hquery, hfragment]; rfl) h
    | some text => exact ⟨'#', text, by decide, rfl⟩
  | some text => exact ⟨'?', text ++ marked '#' url.fragment, by decide, rfl⟩

end HttpUrl

/-- The length stays. -/
theorem length_replacePort (authority : List Char) :
    (replacePort authority).length = authority.length := by
  unfold replacePort
  cases hstrip : stripSuffix ":8545".toList authority with
  | none => rfl
  | some host =>
    rw [stripSuffix_eq_some.mp hstrip]
    simp

-- ---------------------------------------------------------------------------
-- The split
-- ---------------------------------------------------------------------------

theorem withoutScheme_of_lower {scheme : List Char}
    (h : scheme = "http".toList ∨ scheme = "https".toList) (rest : List Char) :
    withoutScheme (scheme ++ "://".toList ++ rest) = rest := by
  rcases h with rfl | rfl
  · rfl
  · rfl

/-- A scheme in another case is not taken off. -/
theorem withoutScheme_of_upper (url : HttpUrl)
    (h : ¬ (url.scheme = "http".toList ∨ url.scheme = "https".toList)) (rest : List Char) :
    withoutScheme (url.scheme ++ "://".toList ++ rest) =
      url.scheme ++ "://".toList ++ rest := by
  have hcolon : ':' ∉ url.scheme := url.notMem_scheme rfl (by decide) (by decide)
  have hkeep : ∀ name : List Char, ':' ∉ name → url.scheme ≠ name →
      stripPrefix (name ++ "://".toList) (url.scheme ++ "://".toList ++ rest) = none := by
    intro name hname hne
    rw [stripPrefix_eq_none]
    rintro ⟨after, hafter⟩
    -- both texts are the same up to their first colon
    have htake := congrArg (List.takeWhile (· ≠ ':')) hafter
    have hname' : ∀ text : List Char, ':' ∉ text → ∀ more,
        (text ++ "://".toList ++ more).takeWhile (· ≠ ':') = text := by
      intro text htext more
      rw [List.append_assoc, List.takeWhile_append_of_pos]
      · exact List.append_nil text
      · intro c hc
        simpa using fun heq : c = ':' => htext (heq ▸ hc)
    rw [hname' name hname, hname' url.scheme hcolon] at htake
    exact hne htake.symm
  have hhttps := hkeep "https".toList (by decide) fun heq => h (Or.inr heq)
  have hhttp := hkeep "http".toList (by decide) fun heq => h (Or.inl heq)
  unfold withoutScheme
  rw [show "https://".toList = "https".toList ++ "://".toList from rfl,
    show "http://".toList = "http".toList ++ "://".toList from rfl, hhttps, hhttp]

/-- The URL behind its scheme. -/
def HttpUrl.hierarchy (url : HttpUrl) (port : Option (List Char)) : List Char :=
  url.authority port ++ url.path ++ url.tail

theorem HttpUrl.text_eq (url : HttpUrl) :
    url.text.toList = url.scheme ++ "://".toList ++ url.hierarchy url.port := by
  simp only [text, hierarchy, String.toList_ofList, List.append_assoc]

theorem derivesWs_iff_lists (url : HttpUrl) :
    DerivesWs url ↔
      replacePort ((withoutScheme url.text.toList).takeWhile (· ≠ '/')) ++
        (withoutScheme url.text.toList).dropWhile (· ≠ '/') =
      url.hierarchy (HttpUrl.wsPort url.port) := by
  unfold DerivesWs deriveWsUrl HttpUrl.wsText HttpUrl.hierarchy
  rw [String.ofList_inj]
  simp only [List.append_assoc, List.append_right_inj]

/-- In another case, the scheme stays in the URL. -/
theorem not_derivesWs_of_upper {url : HttpUrl}
    (h : ¬ (url.scheme = "http".toList ∨ url.scheme = "https".toList)) : ¬ DerivesWs url := by
  rw [derivesWs_iff_lists, url.text_eq, withoutScheme_of_upper url h]
  intro heq
  have hlength := congrArg List.length heq
  have hscheme := url.scheme_length
  have hport := url.length_authority_wsPort
  rw [List.length_append, length_replacePort, ← List.length_append,
    List.takeWhile_append_dropWhile] at hlength
  simp only [HttpUrl.hierarchy, List.length_append] at hlength
  omega

/-- With a path the authority is split off where it ends. -/
theorem derivesWs_of_path {url : HttpUrl}
    (hscheme : url.scheme = "http".toList ∨ url.scheme = "https".toList)
    (hpath : url.path ≠ []) : DerivesWs url := by
  obtain ⟨rest, hrest⟩ := url.path_slash.resolve_left hpath
  have hslash := url.slash_notMem_authority
  rw [derivesWs_iff_lists, url.text_eq, withoutScheme_of_lower hscheme, HttpUrl.hierarchy,
    HttpUrl.hierarchy, hrest, List.append_assoc, List.cons_append,
    takeWhile_append_cons hslash, dropWhile_append_cons hslash, url.replacePort_authority,
    List.append_assoc, List.cons_append]

/-- Without a path, query or fragment the authority is all there is. -/
theorem derivesWs_of_bare {url : HttpUrl}
    (hscheme : url.scheme = "http".toList ∨ url.scheme = "https".toList)
    (hpath : url.path = []) (htail : url.tail = []) : DerivesWs url := by
  have hslash := url.slash_notMem_authority
  rw [derivesWs_iff_lists, url.text_eq, withoutScheme_of_lower hscheme, HttpUrl.hierarchy,
    HttpUrl.hierarchy, hpath, htail]
  have htake := takeWhile_append_of_notMem hslash []
  have hdrop := dropWhile_append_of_notMem hslash []
  simp only [List.append_nil, List.takeWhile_nil, List.dropWhile_nil] at htake hdrop ⊢
  rw [htake, hdrop, url.replacePort_authority, List.append_nil]

/-- Without a path, what stands before the next `/` is taken for the authority. -/
theorem derivesWs_of_tail {url : HttpUrl}
    (hscheme : url.scheme = "http".toList ∨ url.scheme = "https".toList)
    (hpath : url.path = []) (htail : url.tail ≠ []) :
    DerivesWs url ↔ url.port ≠ some "8545".toList ∧
      ¬ ":8545".toList <:+ url.tail.takeWhile (· ≠ '/') := by
  have hslash := url.slash_notMem_authority
  obtain ⟨mark, after, hmark, hafter⟩ := url.exists_mark htail
  have hport := url.length_authority_wsPort
  have hne : mark ≠ '/' := by
    rintro rfl
    exact absurd hmark (by decide)
  have htake : url.tail.takeWhile (· ≠ '/') = mark :: after.takeWhile (· ≠ '/') := by
    rw [hafter, List.takeWhile_cons_of_pos (by simpa using hne)]
  have hnotin : mark ∉ ":8545".toList := by
    rcases List.mem_cons.mp hmark with rfl | hmark
    · decide
    · rw [List.mem_singleton.mp hmark]
      decide
  have hsuffix : ":8545".toList <:+ url.authority url.port ++ url.tail.takeWhile (· ≠ '/') ↔
      ":8545".toList <:+ url.tail.takeWhile (· ≠ '/') := by
    rw [htake, suffix_append_cons hnotin]
    exact (@suffix_append_cons _ _ [] _ _ hnotin).symm
  rw [derivesWs_iff_lists, url.text_eq, withoutScheme_of_lower hscheme, HttpUrl.hierarchy,
    HttpUrl.hierarchy, hpath]
  simp only [List.append_nil]
  rw [takeWhile_append_of_notMem hslash, dropWhile_append_of_notMem hslash]
  by_cases hend : ":8545".toList <:+ url.tail.takeWhile (· ≠ '/')
  · -- the end of the query or fragment is rewritten
    refine iff_of_false (fun heq => ?_) fun h => h.2 hend
    obtain ⟨before, hbefore⟩ := hend
    rw [replacePort, ← hbefore, ← List.append_assoc, stripSuffix_append] at heq
    have htail' : before ++ ":8546".toList ++ url.tail.dropWhile (· ≠ '/') = url.tail := by
      simp only [List.append_assoc] at heq ⊢
      exact List.append_inj_right heq hport.symm
    have hsplit : before ++ ":8545".toList ++ url.tail.dropWhile (· ≠ '/') = url.tail := by
      rw [hbefore, List.takeWhile_append_dropWhile]
    have hboth := List.append_cancel_left
      (List.append_cancel_right (htail'.trans hsplit.symm))
    exact absurd hboth (by decide)
  · rw [replacePort, stripSuffix_eq_none.mpr (hsuffix.not.mpr hend)]
    show url.authority url.port ++ url.tail.takeWhile (· ≠ '/') ++
      url.tail.dropWhile (· ≠ '/') = _ ↔ _
    rw [List.append_assoc, List.takeWhile_append_dropWhile, List.append_left_inj, eq_comm,
      url.authority_wsPort_eq]
    exact (and_iff_left hend).symm

/-- **The derived URL.** It is the documented one exactly when the code's split is the
grammar's, as far as the port goes. -/
theorem derivesWs_iff (url : HttpUrl) : DerivesWs url ↔ SplitsAtAuthority url := by
  unfold SplitsAtAuthority
  by_cases hscheme : url.scheme = "http".toList ∨ url.scheme = "https".toList
  · rw [and_iff_right hscheme]
    by_cases hpath : url.path = []
    · by_cases htail : url.tail = []
      · have hnone := url.tail_eq_nil.mp htail
        exact iff_of_true (derivesWs_of_bare hscheme hpath htail) (Or.inr (Or.inl hnone))
      · have hsome : ¬ (url.query = none ∧ url.fragment = none) := url.tail_eq_nil.not.mp htail
        rw [derivesWs_of_tail hscheme hpath htail, or_iff_right (not_not.mpr hpath),
          or_iff_right hsome]
    · exact iff_of_true (derivesWs_of_path hscheme hpath) (Or.inl hpath)
  · exact iff_of_false (not_derivesWs_of_upper hscheme) fun h => hscheme h.1

/-- `http://host:8545?x=1`. -/
def queryUrl : HttpUrl where
  scheme := "http".toList
  userInfo := none
  host := "host".toList
  port := some "8545".toList
  path := []
  query := some "x=1".toList
  fragment := none
  isHttp := Or.inl rfl
  userInfo_clean := by simp
  isHost := .name _ (List.all_iff_forall_prop.mp (by decide))
  port_digits := by
    rintro digits hdigits
    obtain rfl := Option.some.inj hdigits
    exact List.all_iff_forall_prop.mp (by decide)
  path_slash := Or.inl rfl
  path_clean := by simp
  query_clean := by
    rintro text htext
    obtain rfl := Option.some.inj htext
    decide

/-- A query right behind the port keeps the port as it is. -/
theorem derivesWs_fails : queryUrl.text = "http://host:8545?x=1" ∧ ¬ DerivesWs queryUrl := by
  refine ⟨by decide, fun h => ?_⟩
  obtain ⟨-, hpath | ⟨hquery, -⟩ | ⟨hport, -⟩⟩ := (derivesWs_iff queryUrl).mp h
  · exact hpath rfl
  · exact absurd hquery (by decide)
  · exact hport rfl

end IgraRpc
