import Freja.Domain.Labels
import Freja.Policy.Acl

namespace Freja.Policy
open Domain Bytes Splitting

theorem suffix_matches {candidate ending : HostName} :
    (HostPattern.suffix ending).matchesTarget (.name candidate) = true ↔
      candidate = ending ∨ ∃ front, candidate.text.toList = front ++ '.' :: ending.text.toList := by
  unfold HostPattern.matchesTarget
  simp only [Bool.or_eq_true,Bool.and_eq_true,beq_iff_eq,List.isSuffixOf_iff_suffix]
  apply or_congr Iff.rfl
  constructor
  · intro both
    obtain ⟨⟨front,whole⟩,dotted⟩ := both
    rw [← String.length_toList,← String.length_toList,← whole,List.length_append,Nat.add_sub_cancel,List.take_left] at dotted
    obtain ⟨before,cut⟩ := List.getLast?_eq_some_iff.mp dotted
    refine ⟨before,?_⟩
    rw [← whole,cut,List.append_assoc,List.singleton_append]
  · intro cut
    obtain ⟨front,whole⟩ := cut
    have split : candidate.text.toList = (front ++ ['.']) ++ ending.text.toList := by
      rw [whole,List.append_assoc,List.singleton_append]
    refine ⟨⟨front ++ ['.'],split.symm⟩,?_⟩
    rw [← String.length_toList,← String.length_toList,split,List.length_append,Nat.add_sub_cancel,List.take_left]
    exact List.getLast?_concat

theorem suffix_matches_labels (candidate ending : HostName) :
    (HostPattern.suffix ending).matchesTarget (.name candidate) = true ↔
      labels ending.text <:+ labels candidate.text := by
  rw [suffix_matches,labels,labels,splitOn_suffix,String.toList_inj]
  apply or_congr_left
  constructor
  · intro same
    rw [same]
  · intro same
    cases candidate with
    | mk =>
        cases ending with
        | mk =>
            cases same
            rfl

theorem host_names_follow_labels :
    (∀ value, (∃ host, HostName.new value = .ok host) ↔ DnsName (lowercase (stripRootDot value))) ∧
      (∀ host : HostName, HostName.new host.text = .ok host) ∧
      (∀ candidate ending : HostName, (HostPattern.suffix ending).matchesTarget (.name candidate) = true ↔
        labels ending.text <:+ labels candidate.text) ∧
      ∀ (ending : HostName) (address : IpAddress.IpAddr),
        (HostPattern.suffix ending).matchesTarget (.ip address) = false :=
  ⟨fun _ => HostName.new_accepts,HostName.new_text,suffix_matches_labels,fun _ _ => rfl⟩

end Freja.Policy
