import Courier.Proofs.Json.Exact
import Courier.Token.Issuer

/-! # Grants — which answers of the issuer are one

    A body is a grant when it is one JSON value of the right shape: an object
    with one token and at most one lifetime among any other members, or the
    list of these two fields.  Every answer comes to one of four ends, and
    what its status and its body are decides to which. -/

namespace Courier.Grant

open Json Utf8

/-! ## What stands for a grant -/

/-- The values of the members of one name. -/
def valuesOf (name : String) (entries : List (String × Pair)) : List (List Char) :=
  (entries.filter fun entry => entry.1 == name).map fun entry => entry.2.value.core

theorem valuesOf_same (name : String) (pair : Pair) (entries : List (String × Pair)) :
    valuesOf name ((name, pair) :: entries) = pair.value.core :: valuesOf name entries := by
  simp only [valuesOf, List.filter_cons, beq_self_eq_true, if_true, List.map_cons]

theorem valuesOf_other {name other : String} (ne : other ≠ name) (pair : Pair)
    (entries : List (String × Pair)) :
    valuesOf name ((other, pair) :: entries) = valuesOf name entries := by
  rw [valuesOf, List.filter_cons_of_neg (by simpa using ne)]
  rfl

/-- What the members of an object say of a grant: its token once, its lifetime at most once, and
    otherwise anything. -/
structure InMembers (g : Grant) (entries : List (String × Pair)) : Prop where
  token : ∃ cs, valuesOf "access_token" entries = [cs] ∧ TextBytes g.token cs
  lifetime : (valuesOf "expires_in" entries = [] ∧ g.expiresIn = standardLifetime) ∨
    ∃ cs, valuesOf "expires_in" entries = [cs] ∧ WordForm g.expiresIn cs
  others : ∀ entry ∈ entries, entry.1 ≠ "access_token" → entry.1 ≠ "expires_in" →
    IsValue entry.2.value.core

/-- The JSON values that stand for a grant. -/
inductive IsSpelled (g : Grant) : List Char → Prop where
  | object {gap : List Char} {entries : List (String × Pair)} (space : IsSpacing gap)
      (named : ∀ entry ∈ entries, IsNamed entry) (members : g.InMembers entries) :
      IsSpelled g (bracketed '\x7b' '\x7d' gap (entries.map fun entry => entry.2.chars))
  | token {gap : List Char} {token : Spaced} (space : IsSpacing gap) (spaced : token.IsSpaced)
      (text : TextBytes g.token token.core) (lifetime : g.expiresIn = standardLifetime) :
      IsSpelled g (bracketed '[' ']' gap [token.chars])
  | both {gap : List Char} {token lifetime : Spaced} (space : IsSpacing gap)
      (spaced : token.IsSpaced ∧ lifetime.IsSpaced) (text : TextBytes g.token token.core)
      (word : WordForm g.expiresIn lifetime.core) :
      IsSpelled g (bracketed '[' ']' gap [token.chars, lifetime.chars])

/-- Bodies that are a grant, with white space around it. -/
def IsBody (g : Grant) (body : List UInt8) : Prop :=
  ∃ s : Spaced, s.IsSpaced ∧ g.IsSpelled s.core ∧ octets body = s.chars

/-! ## Fields -/

/-- What the value of a field looks like, and what storing it does. -/
def Stores (name : String) (store : Grant → Grant) (cs : List Char) : Prop :=
  if name = "access_token" then ∃ s, TextBytes s cs ∧ store = fun g => { g with token := s }
  else ∃ n, WordForm n cs ∧ store = fun g => { g with expiresIn := n }

/-- What the field `access_token` stores is a token, the text that stands there. -/
theorem stores_token {store : Grant → Grant} {cs : List Char} : Stores "access_token" store cs ↔
    ∃ s, TextBytes s cs ∧ store = fun g => { g with token := s } := Iff.of_eq (if_pos rfl)

/-- What the field `expires_in` stores is a lifetime, the word that stands there. -/
theorem stores_lifetime {store : Grant → Grant} {cs : List Char} : Stores "expires_in" store cs ↔
    ∃ n, WordForm n cs ∧ store = fun g => { g with expiresIn := n } :=
  Iff.of_eq (if_neg (by decide))

theorem exact_fields : ∀ f ∈ layout.fields, f.read.Exact (Stores f.name) := by
  refine List.forall_mem_cons.mpr ⟨?_, List.forall_mem_cons.mpr ⟨?_, fun _ mem => nomatch mem⟩⟩
  · have same : Stores "access_token" = fun store cs => ∃ s, TextBytes s cs ∧
        store = fun g => { g with token := s } := by
      funext store cs
      exact propext stores_token
    exact same ▸ exact_text.map fun s (g : Grant) => { g with token := s }
  · have same : Stores "expires_in" = fun store cs => ∃ n, WordForm n cs ∧
        store = fun g => { g with expiresIn := n } := by
      funext store cs
      exact propext stores_lifetime
    exact same ▸ exact_word64.map fun n (g : Grant) => { g with expiresIn := n }

theorem mem_fields {name : String} :
    name ∈ layout.fields.map Member.name ↔ name = "access_token" ∨ name = "expires_in" := by
  show name ∈ ["access_token", "expires_in"] ↔ _
  simp only [List.mem_cons, List.not_mem_nil, or_false]

/-- A grant lacks nothing once its token was seen. -/
theorem firstMissing?_eq_none {seen : List String} :
    layout.firstMissing? seen = none ↔ "access_token" ∈ seen := by
  by_cases mem : "access_token" ∈ seen
  · simp [Layout.firstMissing?, layout, mem]
  · simp [Layout.firstMissing?, layout, mem]

/-! ## Objects -/

/-- What is left to be filled in behind the fields that were seen. -/
structure Follows (seen : List String) (record g : Grant) (entries : List (String × Pair)) :
    Prop where
  token : ("access_token" ∈ seen ∧ valuesOf "access_token" entries = [] ∧
      g.token = record.token) ∨
    ("access_token" ∉ seen ∧ ∃ cs, valuesOf "access_token" entries = [cs] ∧ TextBytes g.token cs)
  lifetime : (valuesOf "expires_in" entries = [] ∧ g.expiresIn = record.expiresIn) ∨
    ("expires_in" ∉ seen ∧ ∃ cs, valuesOf "expires_in" entries = [cs] ∧ WordForm g.expiresIn cs)
  others : ∀ entry ∈ entries, entry.1 ≠ "access_token" → entry.1 ≠ "expires_in" →
    IsValue entry.2.value.core

/-- Behind the last entry there is a grant if its token was seen. -/
theorem follows_nil {seen : List String} {record g : Grant} :
    Follows seen record g [] ↔ "access_token" ∈ seen ∧ g = record := by
  constructor
  · intro h
    rcases h.token with ⟨listed, -, token⟩ | ⟨-, cs, none, -⟩
    · rcases h.lifetime with ⟨-, lifetime⟩ | ⟨-, cs, none, -⟩
      · refine ⟨listed, ?_⟩
        obtain ⟨_, _⟩ := g
        obtain ⟨_, _⟩ := record
        dsimp only at token lifetime
        rw [token, lifetime]
      · exact nomatch none
    · exact nomatch none
  · rintro ⟨listed, rfl⟩
    exact ⟨Or.inl ⟨listed, rfl, rfl⟩, Or.inl ⟨rfl, rfl⟩, fun _ mem => nomatch mem⟩

/-- A member that is none of the two is any value. -/
theorem follows_added {seen : List String} {record g : Grant} {name : String} {pair : Pair}
    {entries : List (String × Pair)} (noToken : name ≠ "access_token")
    (noLifetime : name ≠ "expires_in") :
    Follows seen record g ((name, pair) :: entries) ↔
      IsValue pair.value.core ∧ Follows seen record g entries := by
  constructor
  · intro ⟨token, lifetime, others⟩
    rw [valuesOf_other noToken] at token
    rw [valuesOf_other noLifetime] at lifetime
    obtain ⟨value, others⟩ := List.forall_mem_cons.mp others
    exact ⟨value noToken noLifetime, token, lifetime, others⟩
  · rintro ⟨value, token, lifetime, others⟩
    refine ⟨?_, ?_, List.forall_mem_cons.mpr ⟨fun _ _ => value, others⟩⟩
    · rwa [valuesOf_other noToken]
    · rwa [valuesOf_other noLifetime]

/-- The token is stored where it has not been. -/
theorem follows_token {seen : List String} {record g : Grant} {pair : Pair}
    {entries : List (String × Pair)} :
    Follows seen record g (("access_token", pair) :: entries) ↔
      "access_token" ∉ seen ∧ ∃ s, TextBytes s pair.value.core ∧
        Follows ("access_token" :: seen) { record with token := s } g entries := by
  have other : "access_token" ≠ "expires_in" := by decide
  have unseen : "expires_in" ∉ "access_token" :: seen ↔ "expires_in" ∉ seen := by simp
  constructor
  · intro ⟨token, lifetime, others⟩
    rw [valuesOf_same] at token
    rw [valuesOf_other other] at lifetime
    rcases token with ⟨-, none, -⟩ | ⟨fresh, cs, one, text⟩
    · exact nomatch none
    · obtain ⟨rfl, none⟩ := List.cons.inj one
      refine ⟨fresh, g.token, text, Or.inl ⟨List.mem_cons_self, none, rfl⟩, ?_,
        (List.forall_mem_cons.mp others).2⟩
      rwa [unseen]
  · rintro ⟨fresh, s, text, token, lifetime, others⟩
    rw [unseen] at lifetime
    rcases token with ⟨-, none, rfl⟩ | ⟨stale, -⟩
    · refine ⟨Or.inr ⟨fresh, pair.value.core, by rw [valuesOf_same, none], text⟩, ?_,
        List.forall_mem_cons.mpr ⟨fun token => absurd rfl token, others⟩⟩
      rwa [valuesOf_other other]
    · exact absurd List.mem_cons_self stale

/-- So is the lifetime. -/
theorem follows_lifetime {seen : List String} {record g : Grant} {pair : Pair}
    {entries : List (String × Pair)} :
    Follows seen record g (("expires_in", pair) :: entries) ↔
      "expires_in" ∉ seen ∧ ∃ n, WordForm n pair.value.core ∧
        Follows ("expires_in" :: seen) { record with expiresIn := n } g entries := by
  have other : "expires_in" ≠ "access_token" := by decide
  have same : "access_token" ∈ "expires_in" :: seen ↔ "access_token" ∈ seen := by simp
  constructor
  · intro ⟨token, lifetime, others⟩
    rw [valuesOf_other other] at token
    rw [valuesOf_same] at lifetime
    rcases lifetime with ⟨none, -⟩ | ⟨fresh, cs, one, word⟩
    · exact nomatch none
    · obtain ⟨rfl, none⟩ := List.cons.inj one
      refine ⟨fresh, g.expiresIn, word, ?_, Or.inl ⟨none, rfl⟩, (List.forall_mem_cons.mp others).2⟩
      rwa [same]
  · rintro ⟨fresh, n, word, token, lifetime, others⟩
    rw [same] at token
    rcases lifetime with ⟨none, rfl⟩ | ⟨stale, -⟩
    · refine ⟨?_, Or.inr ⟨fresh, pair.value.core, by rw [valuesOf_same, none], word⟩,
        List.forall_mem_cons.mpr ⟨fun _ lifetime => absurd rfl lifetime, others⟩⟩
      rwa [valuesOf_other other]
    · exact absurd List.mem_cons_self stale

/-- Members fill a record just where they leave nothing to be filled in. -/
theorem fills_iff {entries : List (String × Pair)} : ∀ {seen : List String} {record g : Grant},
    layout.Fills Stores seen record entries g ↔ Follows seen record g entries := by
  induction entries with
  | nil =>
      intro seen record g
      rw [follows_nil, ← firstMissing?_eq_none]
      constructor
      · rintro ⟨complete⟩
        exact ⟨complete, rfl⟩
      · rintro ⟨complete, rfl⟩
        exact .done complete
  | cons entry entries ih =>
      intro seen record g
      obtain ⟨name, pair⟩ := entry
      -- by induction on the entries: each is the token, the lifetime, or an addition
      by_cases token : name = "access_token"
      · subst token
        rw [follows_token]
        constructor
        · intro fills
          cases fills with
          | added unknown => exact absurd (mem_fields.mpr (Or.inl rfl)) unknown
          | stored _ fresh value rest =>
              obtain ⟨s, text, rfl⟩ := stores_token.mp value
              exact ⟨fresh, s, text, ih.mp rest⟩
        · rintro ⟨fresh, s, text, rest⟩
          exact .stored (mem_fields.mpr (Or.inl rfl)) fresh (stores_token.mpr ⟨s, text, rfl⟩)
            (ih.mpr rest)
      · by_cases lifetime : name = "expires_in"
        · subst lifetime
          rw [follows_lifetime]
          constructor
          · intro fills
            cases fills with
            | added unknown => exact absurd (mem_fields.mpr (Or.inr rfl)) unknown
            | stored _ fresh value rest =>
                obtain ⟨n, word, rfl⟩ := stores_lifetime.mp value
                exact ⟨fresh, n, word, ih.mp rest⟩
          · rintro ⟨fresh, n, word, rest⟩
            exact .stored (mem_fields.mpr (Or.inr rfl)) fresh
              (stores_lifetime.mpr ⟨n, word, rfl⟩) (ih.mpr rest)
        · have unknown : name ∉ layout.fields.map Member.name := by
            rw [mem_fields]
            exact fun own => own.elim token lifetime
          rw [follows_added token lifetime, ← ih]
          constructor
          · intro fills
            cases fills with
            | added _ value rest => exact ⟨value, rest⟩
            | stored own => exact absurd own unknown
          · rintro ⟨value, rest⟩
            exact .added unknown value rest

/-- The members of an object hold a grant just if reading them one by one comes to it. -/
theorem inMembers_iff {g : Grant} {entries : List (String × Pair)} :
    g.InMembers entries ↔ Follows [] layout.blank g entries := by
  constructor
  · rintro ⟨token, lifetime, others⟩
    exact ⟨Or.inr ⟨List.not_mem_nil, token⟩,
      lifetime.imp id fun word => ⟨List.not_mem_nil, word⟩, others⟩
  · rintro ⟨token, lifetime, others⟩
    refine ⟨?_, lifetime.imp id And.right, others⟩
    rcases token with ⟨none, -⟩ | ⟨-, token⟩
    · exact nomatch none
    · exact token

/-! ## Bodies -/

/-- A list holds a grant just if it has a token, and a lifetime or none, in this order. -/
theorem places_iff {items : List Spaced} {g : Grant} :
    Layout.Places Stores layout.fields layout.blank items g ↔
      (∃ token, items = [token] ∧ TextBytes g.token token.core ∧
        g.expiresIn = standardLifetime) ∨
      ∃ token lifetime, items = [token, lifetime] ∧ TextBytes g.token token.core ∧
        WordForm g.expiresIn lifetime.core := by
  constructor
  · intro places
    cases places with
    | done optional => exact nomatch optional _ List.mem_cons_self
    | @stored _ _ _ _ token _ _ value rest =>
        obtain ⟨s, text, rfl⟩ := stores_token.mp value
        cases rest with
        | done => exact Or.inl ⟨token, rfl, text, rfl⟩
        | @stored _ _ _ _ lifetime _ _ value rest =>
            obtain ⟨n, word, rfl⟩ := stores_lifetime.mp value
            cases rest with
            | done => exact Or.inr ⟨token, lifetime, rfl, text, word⟩
  · obtain ⟨s, n⟩ := g
    rintro (⟨token, rfl, text, rfl⟩ | ⟨token, lifetime, rfl, text, word⟩)
    · exact .stored (stores_token.mpr ⟨s, text, rfl⟩) (.done (by decide))
    · exact .stored (stores_token.mpr ⟨s, text, rfl⟩)
        (.stored (stores_lifetime.mpr ⟨n, word, rfl⟩) (.done fun _ mem => nomatch mem))

/-- A grant is spelled where its record is written. -/
theorem isSpelled_iff {g : Grant} {cs : List Char} :
    g.IsSpelled cs ↔ layout.Written Stores g cs := by
  constructor
  · intro h
    cases h with
    | object space named members =>
        exact .object space named (fills_iff.mpr (inMembers_iff.mp members))
    | @token gap token space spaced text lifetime =>
        have places := places_iff.mpr (Or.inl ⟨token, rfl, text, lifetime⟩)
        exact .list space (List.forall_mem_singleton.mpr spaced) places
    | @both gap token lifetime space spaced text word =>
        have places := places_iff.mpr (Or.inr ⟨token, lifetime, rfl, text, word⟩)
        exact .list space
          (List.forall_mem_cons.mpr ⟨spaced.1, List.forall_mem_singleton.mpr spaced.2⟩) places
  · intro h
    cases h with
    | object space named fills =>
        exact .object space named (inMembers_iff.mpr (fills_iff.mp fills))
    | list space spaced places =>
        rcases places_iff.mp places with ⟨token, rfl, text, lifetime⟩ |
          ⟨token, lifetime, rfl, text, word⟩
        · exact .token space (spaced token List.mem_cons_self) text lifetime
        · exact .both space ⟨spaced token List.mem_cons_self,
            spaced lifetime (List.mem_cons_of_mem _ List.mem_cons_self)⟩ text word

/-- **BODIES OF GRANTS**: a body is decoded as a grant just if it is the body of one. -/
theorem decode_eq_ok_iff {g : Grant} {body : List UInt8} :
    decode layout.read body = .ok g ↔ g.IsBody body := by
  rw [decode_eq_ok (exact_read exact_fields)]
  simp only [IsBody, isSpelled_iff]

/-- A body stands for one grant at most. -/
theorem IsBody.unique {g g' : Grant} {body : List UInt8} (h : g.IsBody body)
    (h' : g'.IsBody body) : g = g' :=
  Except.ok.inj ((decode_eq_ok_iff.mpr h).symm.trans (decode_eq_ok_iff.mpr h'))

/-- What an unreadable body is shown as: all of it, or its first hundred characters. -/
theorem preview_decodeLossy (body : List UInt8) : IssuerError.preview (decodeLossy body) =
    if (decodeLossy body).length ≤ 100 then String.ofList (decodeLossy body)
    else String.ofList ((decodeLossy body).take 100) ++ "...<truncated>" := rfl

/-- A body of a grant is read as the grant, unless its token is empty. -/
theorem ofBody_of_isBody {g : Grant} {body : List UInt8} (h : g.IsBody body) :
    ofBody body = if g.token = "" then .error .noToken else .ok g := by
  rw [ofBody, decode_eq_ok_iff.mpr h]
  dsimp only
  by_cases empty : g.token = ""
  · rw [if_pos empty, if_pos (by rw [empty]; rfl)]
  · rw [if_neg empty, if_neg (by simpa using empty)]

/-- Any other body is kept as a preview. -/
theorem ofBody_of_not_isBody {body : List UInt8} (h : ∀ g : Grant, ¬g.IsBody body) :
    ∃ reason, ofBody body = .error (.malformed reason (IssuerError.preview (decodeLossy body))) := by
  cases decoded : decode layout.read body with
  | ok g => exact absurd (decode_eq_ok_iff.mp decoded) (h g)
  | error fault => exact ⟨fault.message, by rw [ofBody, decoded]⟩

/-! ## Answers -/

/-- The four ends of an answer: the grant that its body is, a grant without a token, another status
    than success, or a body that is no grant and is shown for what it is, cut short. -/
structure Decides (response : Response) (outcome : Except IssuerError Grant) : Prop where
  granted : ∀ g, outcome = .ok g ↔
    (200 ≤ response.status.code ∧ response.status.code < 300) ∧ g.IsBody response.body ∧
      g.token ≠ ""
  noToken : outcome = .error .noToken ↔
    (200 ≤ response.status.code ∧ response.status.code < 300) ∧
      ∃ g : Grant, g.IsBody response.body ∧ g.token = ""
  rejected : ∀ status, (∃ wait, outcome = .error (.rejected status wait)) ↔
    ¬(200 ≤ response.status.code ∧ response.status.code < 300) ∧ status = response.status
  malformed : ∀ shown, (∃ reason, outcome = .error (.malformed reason shown)) ↔
    (200 ≤ response.status.code ∧ response.status.code < 300) ∧
      (∀ g : Grant, ¬g.IsBody response.body) ∧
      shown = if (decodeLossy response.body).length ≤ 100
        then String.ofList (decodeLossy response.body)
        else String.ofList ((decodeLossy response.body).take 100) ++ "...<truncated>"
  reachable : ∀ reason, outcome ≠ .error (.unreachable reason)

theorem isSuccess_iff (status : Status) :
    status.isSuccess = true ↔ 200 ≤ status.code ∧ status.code < 300 := by
  rw [Status.isSuccess, beq_iff_eq]
  omega

section Ends

variable {response : Response}

/-- A grant with a token in a good answer is what the answer decides. -/
theorem decides_granted {g : Grant} (success : 200 ≤ response.status.code ∧ response.status.code < 300)
    (body : g.IsBody response.body) (some : g.token ≠ "") : Decides response (.ok g) where
  granted g' := by
    constructor
    · intro same
      obtain rfl := Except.ok.inj same
      exact ⟨success, body, some⟩
    · rintro ⟨-, body', -⟩
      rw [body.unique body']
  noToken := by
    refine ⟨nofun, ?_⟩
    rintro ⟨-, g', body', empty⟩
    exact absurd (body.unique body' ▸ empty) some
  rejected status := ⟨fun ⟨_, same⟩ => (nomatch same), fun ⟨failure, _⟩ => absurd success failure⟩
  malformed shown := ⟨fun ⟨_, same⟩ => (nomatch same), fun ⟨_, unreadable, _⟩ => absurd body (unreadable g)⟩
  reachable _ none := nomatch none

/-- A grant without a token in a good answer decides for that failure. -/
theorem decides_noToken {g : Grant} (success : 200 ≤ response.status.code ∧ response.status.code < 300)
    (body : g.IsBody response.body) (empty : g.token = "") :
    Decides response (.error .noToken) where
  granted g' := by
    refine ⟨nofun, ?_⟩
    rintro ⟨-, body', some⟩
    exact absurd (body.unique body' ▸ empty) some
  noToken := ⟨fun _ => ⟨success, g, body, empty⟩, fun _ => rfl⟩
  rejected status := ⟨fun ⟨_, same⟩ => (nomatch same), fun ⟨failure, _⟩ => absurd success failure⟩
  malformed shown := ⟨fun ⟨_, same⟩ => (nomatch same), fun ⟨_, unreadable, _⟩ => absurd body (unreadable g)⟩
  reachable _ none := nomatch none

/-- A good answer with any other body decides for that failure. -/
theorem decides_malformed (reason : String)
    (success : 200 ≤ response.status.code ∧ response.status.code < 300)
    (unreadable : ∀ g : Grant, ¬g.IsBody response.body) : Decides response
      (.error (.malformed reason (IssuerError.preview (decodeLossy response.body)))) where
  granted g := ⟨nofun, fun ⟨_, body, _⟩ => absurd body (unreadable g)⟩
  noToken := ⟨nofun, fun ⟨_, g, body, _⟩ => absurd body (unreadable g)⟩
  rejected status := ⟨fun ⟨_, same⟩ => (nomatch same), fun ⟨failure, _⟩ => absurd success failure⟩
  malformed shown := by
    rw [← preview_decodeLossy]
    constructor
    · rintro ⟨reason, same⟩
      obtain ⟨-, rfl⟩ := IssuerError.malformed.inj (Except.error.inj same)
      exact ⟨success, unreadable, rfl⟩
    · rintro ⟨-, -, rfl⟩
      exact ⟨reason, rfl⟩
  reachable _ none := nomatch none

/-- An answer with any other status decides for its rejection. -/
theorem decides_rejected (wait : Option Span)
    (failure : ¬(200 ≤ response.status.code ∧ response.status.code < 300)) :
    Decides response (.error (.rejected response.status wait)) where
  granted g := ⟨nofun, fun ⟨success, _⟩ => absurd success failure⟩
  noToken := ⟨nofun, fun ⟨success, _⟩ => absurd success failure⟩
  rejected status := by
    constructor
    · rintro ⟨wait, same⟩
      exact ⟨failure, (IssuerError.rejected.inj (Except.error.inj same)).1.symm⟩
    · rintro ⟨-, rfl⟩
      exact ⟨wait, rfl⟩
  malformed shown := ⟨fun ⟨_, same⟩ => (nomatch same), fun ⟨success, _⟩ => absurd success failure⟩
  reachable _ none := nomatch none

end Ends

/-- **ANSWERS**: the status and the body of an answer decide what the issuer has granted, whatever
    they are. -/
theorem ofExchange_decides (response : Response) :
    Decides response (ofExchange (.ok response)) := by
  by_cases success : 200 ≤ response.status.code ∧ response.status.code < 300
  · rw [ofExchange, if_pos ((isSuccess_iff _).mpr success)]
    by_cases readable : ∃ g : Grant, g.IsBody response.body
    · obtain ⟨g, body⟩ := readable
      rw [ofBody_of_isBody body]
      split
      · next empty => exact decides_noToken success body empty
      · next some => exact decides_granted success body some
    · have unreadable := not_exists.mp readable
      obtain ⟨reason, failed⟩ := ofBody_of_not_isBody unreadable
      rw [failed]
      exact decides_malformed reason success unreadable
  · rw [ofExchange, if_neg (fun is => success ((isSuccess_iff _).mp is))]
    exact decides_rejected _ success

end Courier.Grant
