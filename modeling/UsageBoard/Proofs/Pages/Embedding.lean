import UsageBoard.Proofs.Markup.Beginnings
import UsageBoard.Proofs.Pages.Remembered

/-!
# Addresses that are shown as whole pages

Content is kept as an address or as HTML, and nothing but its beginning tells which.  No HTML of markup
begins as an address does, so content that was kept is shown as it was when it was given.

## Main statements

* `not_prefix_toHtml`: no HTML of markup begins as an address does.
* `embeds_given_addresses`: what is shown as a whole page, and what is remembered of it.
-/

namespace UsageBoard

open UsageBoard.Store (Edit Entries)

namespace PageContent

variable {raw : String}

theorem startsWith_embedStart_iff : Text.startsWith raw embedStart ↔ "https://".toList <+: raw.toList :=
  List.isPrefixOf_iff_prefix

theorem not_prefix_toHtml (source : String) : ¬"https://".toList <+: (Markup.toHtml source).toList := by
  rintro ⟨rest, split⟩
  have front := Markup.head?_toHtml source 'h' (by rw [← split]; rfl)
  revert front
  unfold Markup.IsFront
  decide

theorem ofRaw_of_prefix (address : "https://".toList <+: raw.toList) : ofRaw raw = .embed raw := by
  have starts := startsWith_embedStart_iff.mpr address
  have solid : ¬raw.toList.all Text.isBlank := by
    intro blank
    obtain ⟨rest, split⟩ := address
    have first := List.all_eq_true.mp blank 'h' (by rw [← split]; simp)
    exact absurd first (by decide)
  rw [ofRaw, resolve, if_pos starts, ofResolved, if_neg solid, if_pos starts]

theorem ofRaw_of_not_prefix (markup : ¬"https://".toList <+: raw.toList) :
    ofRaw raw = if (Markup.toHtml raw).toList.all Text.isBlank then .builtIn else .html (Markup.toHtml raw) := by
  have other : ¬Text.startsWith raw embedStart := startsWith_embedStart_iff.not.mpr markup
  have html : ¬Text.startsWith (Markup.toHtml raw) embedStart :=
    startsWith_embedStart_iff.not.mpr (not_prefix_toHtml raw)
  rw [ofRaw, resolve, if_neg other, ofResolved, if_neg html]

end PageContent

namespace Pages

/-- Content is shown as a whole page just if it is given as an address, and then it is that address; all
other content is HTML, which does not begin as an address does.  So as long as its key is left alone, what
is read back from the store is shown as it was when it was given. -/
theorem embeds_given_addresses (raw : String) :
    (∀ address, PageContent.ofRaw raw = .embed address ↔
      "https://".toList <+: raw.toList ∧ address = raw) ∧
    (¬"https://".toList <+: raw.toList →
      ¬"https://".toList <+: (Markup.toHtml raw).toList ∧
      PageContent.ofRaw raw =
        if (Markup.toHtml raw).toList.all Text.isBlank then .builtIn else .html (Markup.toHtml raw)) ∧
    PageContent.ofResolved (PageContent.resolve raw) = PageContent.ofRaw raw ∧
    ∀ (entries : Entries) (key : String) (later : List Edit), (∀ edit ∈ later, edit.key ≠ key) →
      Given.remembered ((entries.applyAll (Given.edits key (.ok raw))).applyAll later) key =
        PageContent.ofRaw raw := by
  refine ⟨fun address => ?_, fun markup => ⟨PageContent.not_prefix_toHtml raw,
    PageContent.ofRaw_of_not_prefix markup⟩, rfl, fun entries key later apart => ?_⟩
  · by_cases given : "https://".toList <+: raw.toList
    · rw [PageContent.ofRaw_of_prefix given, PageContent.embed.injEq, and_iff_right given, eq_comm]
    · rw [PageContent.ofRaw_of_not_prefix given]
      refine iff_of_false ?_ fun both => given both.1
      split <;> simp
  · rw [Given.remembered, Entries.get?_applyAll_of_forall_ne _ apart]
    exact Given.remembered_applyAll_edits key (.ok raw)

/-- An address, and one in raw tags that is kept while a notice is. -/
theorem embeds_given_addresses_of_tags :
    PageContent.ofRaw "https://a.example/" = .embed "https://a.example/" ∧
      ¬"https://".toList <+: "<hr>https://a.example/".toList ∧
      ¬"https://".toList <+: (Markup.toHtml "<hr>https://a.example/").toList ∧
      Given.remembered ((Entries.empty.applyAll (Given.edits StoreKey.homePage
          (.ok "<hr>https://a.example/"))).applyAll [.put StoreKey.notice "Back at noon"]) StoreKey.homePage =
        PageContent.ofRaw "<hr>https://a.example/" := by
  have markup : ¬"https://".toList <+: "<hr>https://a.example/".toList := by decide
  obtain ⟨-, html, -, kept⟩ := embeds_given_addresses "<hr>https://a.example/"
  refine ⟨((embeds_given_addresses "https://a.example/").1 _).mpr ⟨by decide, rfl⟩, markup,
    (html markup).1, kept _ _ _ ?_⟩
  exact List.forall_mem_singleton.mpr (by decide)

end Pages

end UsageBoard
