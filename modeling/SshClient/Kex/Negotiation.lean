import SshClient.Kex.Basic
import SshClient.Text.Split

/-!
# The negotiated algorithms

In every category the choice is the first name of the client that the server has as well.
A name is a whole segment between commas. The client offers one name in each category, so
there is only one result that it can negotiate.
-/

namespace SshClient.Kex

open Control

variable {clientList serverList : Bytes}

/-- The names of a list. -/
def names (list : Bytes) : List Bytes := Text.lines comma list

/-- The first of the client's names that the server has. -/
def Chosen (clientList serverList name : Bytes) : Prop :=
  ∃ before after, names clientList = before ++ name :: after ∧ name ∈ names serverList ∧
    ∀ other ∈ before, other ∉ names serverList

def Intersect (clientList serverList : Bytes) : Prop :=
  ∃ name, name ∈ names clientList ∧ name ∈ names serverList

theorem chooseAlgorithm_ok {name : Bytes} :
    chooseAlgorithm clientList serverList = .ok name ↔ Chosen clientList serverList name := by
  have hfind : chooseAlgorithm clientList serverList = .ok name ↔
      ((names clientList).find? fun c => (names serverList).any fun s => c == s) = some name := by
    unfold chooseAlgorithm names
    dsimp only
    split <;> simp [*]
  have hany : ∀ c : Bytes, ((names serverList).any fun s => c == s) =
      decide (c ∈ names serverList) := by
    intro c
    rw [Bool.eq_iff_iff]
    simp
  rw [hfind, List.find?_eq_some_iff_append, Chosen]
  simp only [hany, Bool.not_eq_true', decide_eq_true_eq, decide_eq_false_iff_not]
  constructor
  · rintro ⟨hserver, before, after, hclient, hbefore⟩
    exact ⟨before, after, hclient, hserver, hbefore⟩
  · rintro ⟨before, after, hclient, hserver, hbefore⟩
    exact ⟨hserver, before, after, hclient, hbefore⟩

/-- A choice is made exactly when the two lists have a name in common. -/
theorem exists_chooseAlgorithm :
    (∃ name, chooseAlgorithm clientList serverList = .ok name) ↔
      Intersect clientList serverList := by
  unfold chooseAlgorithm Intersect names
  dsimp only
  split
  next c hfind =>
    refine ⟨fun _ => ?_, fun _ => ⟨c, rfl⟩⟩
    exact ⟨c, List.mem_of_find?_eq_some hfind, by simpa using List.find?_some hfind⟩
  next hfind =>
    refine ⟨fun ⟨_, h⟩ => (nomatch h), ?_⟩
    rintro ⟨name, hclient, hserver⟩
    have hnone := List.find?_eq_none.mp hfind name hclient
    exact absurd (by simpa using hserver) hnone

theorem throwsOnly_chooseAlgorithm : ThrowsOnly (chooseAlgorithm clientList serverList) := by
  unfold chooseAlgorithm
  dsimp only
  split <;> simp

/-- The eight categories, each with its field in the proposals and in the result. -/
def categories : List ((KexInit → Bytes) × (NegotiatedAlgorithms → Bytes)) :=
  [(KexInit.kexAlgorithms, NegotiatedAlgorithms.kexAlgorithm),
    (KexInit.hostKeyAlgorithms, NegotiatedAlgorithms.hostKeyAlgorithm),
    (KexInit.encryptionCsAlgorithms, NegotiatedAlgorithms.encryptionCsAlgorithm),
    (KexInit.encryptionScAlgorithms, NegotiatedAlgorithms.encryptionScAlgorithm),
    (KexInit.macCsAlgorithms, NegotiatedAlgorithms.macCsAlgorithm),
    (KexInit.macScAlgorithms, NegotiatedAlgorithms.macScAlgorithm),
    (KexInit.compressionCsAlgorithms, NegotiatedAlgorithms.compressionCsAlgorithm),
    (KexInit.compressionScAlgorithms, NegotiatedAlgorithms.compressionScAlgorithm)]

variable {client server : KexInit} {a : NegotiatedAlgorithms}

theorem negotiate_ok :
    negotiate client server = .ok a ↔
      ∀ category ∈ categories, chooseAlgorithm (category.1 client) (category.1 server) =
        .ok (category.2 a) := by
  simp only [negotiate, bind_eq_ok, pure_eq_ok, categories, List.forall_mem_cons, List.not_mem_nil,
    false_implies, implies_true, and_true]
  constructor
  · rintro ⟨c1, h1, c2, h2, c3, h3, c4, h4, c5, h5, c6, h6, c7, h7, c8, h8, rfl⟩
    exact ⟨h1, h2, h3, h4, h5, h6, h7, h8⟩
  · rintro ⟨h1, h2, h3, h4, h5, h6, h7, h8⟩
    exact ⟨_, h1, _, h2, _, h3, _, h4, _, h5, _, h6, _, h7, _, h8, rfl⟩

theorem throwsOnly_negotiate : ThrowsOnly (negotiate client server) := by
  unfold negotiate
  repeat' first
    | exact throwsOnly_pure
    | refine ThrowsOnly.bind throwsOnly_chooseAlgorithm fun _ => ?_

/-- The algorithms that the client implements. -/
def implementedSuite : NegotiatedAlgorithms where
  kexAlgorithm := ascii "curve25519-sha256"
  hostKeyAlgorithm := ascii "ssh-ed25519"
  encryptionCsAlgorithm := ascii "aes256-ctr"
  encryptionScAlgorithm := ascii "aes256-ctr"
  macCsAlgorithm := ascii "hmac-sha2-256"
  macScAlgorithm := ascii "hmac-sha2-256"
  compressionCsAlgorithm := ascii "none"
  compressionScAlgorithm := ascii "none"

/-- A list of one name has no other choice. -/
theorem eq_of_chosen_single {name : Bytes} (hnames : names clientList = [clientList])
    (h : Chosen clientList serverList name) : name = clientList := by
  obtain ⟨before, after, hclient, -, -⟩ := h
  rw [hnames] at hclient
  have hmem : name ∈ [clientList] := by
    rw [hclient]
    simp
  exact List.mem_singleton.mp hmem

theorem names_clientOffer {cookie : Fixed 16} {category} (h : category ∈ categories) :
    names (category.1 (clientOffer cookie)) = [category.1 (clientOffer cookie)] := by
  simp only [categories, List.mem_cons, List.not_mem_nil, or_false] at h
  rcases h with rfl | rfl | rfl | rfl | rfl | rfl | rfl | rfl <;> rfl

theorem negotiate_clientOffer {cookie : Fixed 16} (hclient : ∀ category ∈ categories,
      category.1 client = category.1 (clientOffer cookie))
    (h : negotiate client server = .ok a) : a = implementedSuite := by
  have hchoice : ∀ category ∈ categories, category.2 a = category.1 (clientOffer cookie) := by
    intro category hcategory
    have hchosen := chooseAlgorithm_ok.mp (negotiate_ok.mp h category hcategory)
    rw [hclient category hcategory] at hchosen
    exact eq_of_chosen_single (names_clientOffer hcategory) hchosen
  simp only [categories, List.forall_mem_cons, List.not_mem_nil, false_implies, implies_true,
    and_true] at hchoice
  obtain ⟨h1, h2, h3, h4, h5, h6, h7, h8⟩ := hchoice
  cases a
  simp only at h1 h2 h3 h4 h5 h6 h7 h8
  subst h1 h2 h3 h4 h5 h6 h7 h8
  rfl

/-- The client's lists do not depend on what is drawn for the cookie. -/
theorem createClientKexinit_ok {w t : Wire} (h : createClientKexinit.run w = .ok client t) :
    ∃ cookie, ∀ category ∈ categories, category.1 client = category.1 (clientOffer cookie) := by
  have hspec : WP createClientKexinit w (fun client _ => ∃ cookie, ∀ category ∈ categories,
      category.1 client = category.1 (clientOffer cookie)) (fun _ _ => True) := by
    simp only [createClientKexinit, WP.bind_iff, wp_randombytesBuf, WP.lift_iff, WP.pure_iff]
    refine ⟨fun payload _ => ⟨Fixed.copy 16
      ((List.range cookieBytes).map fun i => w.random (w.drawn + i)), ?_⟩, fun _ _ => trivial⟩
    simp [categories]
  exact hspec.of_ok h

/-- Names are what `getline` cuts a list into. The negotiation succeeds exactly when the
lists have a name in common in every category, and then the result in every category is
the first name of the client that the server has in the same category. What the client
offers leaves one result only. -/
theorem negotiate_exact :
    (∀ list cut, Text.Splits comma list cut ↔ cut = names list) ∧
    (∀ client server, (∃ a, negotiate client server = .ok a) ↔
      ∀ category ∈ categories, Intersect (category.1 client) (category.1 server)) ∧
    (∀ client server a, negotiate client server = .ok a ↔ ∀ category ∈ categories,
      Chosen (category.1 client) (category.1 server) (category.2 a)) ∧
    (∀ client server, ThrowsOnly (negotiate client server)) ∧
    ∀ w t client server a, createClientKexinit.run w = .ok client t →
      negotiate client server = .ok a → a = implementedSuite := by
  refine ⟨fun _ _ => Text.splits_iff, fun client server => ⟨?_, ?_⟩, fun client server a => ?_,
    fun _ _ => throwsOnly_negotiate, ?_⟩
  · rintro ⟨a, ha⟩ category hcategory
    exact exists_chooseAlgorithm.mp ⟨_, negotiate_ok.mp ha category hcategory⟩
  · intro h
    simp only [← exists_chooseAlgorithm, categories, List.forall_mem_cons, List.not_mem_nil,
      false_implies, implies_true, and_true] at h
    obtain ⟨⟨c1, h1⟩, ⟨c2, h2⟩, ⟨c3, h3⟩, ⟨c4, h4⟩, ⟨c5, h5⟩, ⟨c6, h6⟩, ⟨c7, h7⟩, ⟨c8, h8⟩⟩ := h
    refine ⟨⟨c1, c2, c3, c4, c5, c6, c7, c8⟩, negotiate_ok.mpr ?_⟩
    simp only [categories, List.forall_mem_cons, List.not_mem_nil, false_implies, implies_true,
      and_true]
    exact ⟨h1, h2, h3, h4, h5, h6, h7, h8⟩
  · rw [negotiate_ok]
    exact forall₂_congr fun _ _ => chooseAlgorithm_ok
  · intro w t client server a hclient ha
    obtain ⟨cookie, hfields⟩ := createClientKexinit_ok hclient
    exact negotiate_clientOffer hfields ha

end SshClient.Kex
