set_option autoImplicit false

/-! Element trees. -/

namespace EventQuery

structure XmlNode where
  name : String
  attributes : List (String × String)
  children : List XmlNode
  text : Option String

mutual

def XmlNode.same : XmlNode → XmlNode → Bool
  | ⟨name, attributes, children, text⟩, ⟨otherName, otherAttributes, otherChildren, otherText⟩ =>
      name = otherName && attributes = otherAttributes && sameChildren children otherChildren &&
        text = otherText
termination_by structural left _ => left

def sameChildren : List XmlNode → List XmlNode → Bool
  | [], [] => true
  | child :: children, other :: others => child.same other && sameChildren children others
  | _, _ => false
termination_by structural left _ => left

end

mutual

theorem XmlNode.same_self : (node : XmlNode) → node.same node = true
  | ⟨_, _, children, _⟩ => by simp [XmlNode.same, sameChildren_self children]
termination_by structural node => node

theorem sameChildren_self : (children : List XmlNode) → sameChildren children children = true
  | [] => rfl
  | child :: children => by
      simp [sameChildren, XmlNode.same_self child, sameChildren_self children]
termination_by structural children => children

end

namespace XmlNode

def attribute? (node : XmlNode) (name : String) : Option String :=
  node.attributes.lookup name

def child? (node : XmlNode) (name : String) : Option XmlNode :=
  node.children.find? (fun child => child.name = name)

end XmlNode

end EventQuery
