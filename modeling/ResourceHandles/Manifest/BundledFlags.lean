/-!
# The bundled declarations of the open flags

The first of the two sources that are scanned when no path is named.  Its
comments declare the numbers of the six open flags.
-/

namespace ResourceHandles

def flagSourceLines : List String := [
  "//! Open option tags for `open`.",
  "//!",
  "//! The `(def ...)` line comments on [`OpenFlag`] are manifest directives:",
  "//! `unio-manifest` extracts them so other runtimes share the same tag values.",
  "//! Plain `//` comments in this file are therefore reserved for directives.",
  "",
  "use serde::\x7bDeserialize, Serialize\x7d;",
  "",
  "/// One option tag in the set passed to `open`.",
  "#[derive(Debug, Clone, Copy, PartialEq, Eq, Hash, Serialize, Deserialize)]",
  "#[serde(rename_all = \"kebab-case\")]",
  "#[repr(u8)]",
  "pub enum OpenFlag \x7b",
  "    // (def open_read 0)",
  "    Read = 0,",
  "    // (def open_write 1)",
  "    Write = 1,",
  "    // (def open_append 2)",
  "    Append = 2,",
  "    // (def open_truncate 3)",
  "    Truncate = 3,",
  "    // (def open_create 4)",
  "    Create = 4,",
  "    // (def open_create_new 5)",
  "    CreateNew = 5,",
  "\x7d",
  "",
  "impl OpenFlag \x7b",
  "    pub const ALL: [OpenFlag; 6] = [",
  "        OpenFlag::Read,",
  "        OpenFlag::Write,",
  "        OpenFlag::Append,",
  "        OpenFlag::Truncate,",
  "        OpenFlag::Create,",
  "        OpenFlag::CreateNew,",
  "    ];",
  "",
  "    /// Wire tag shared with the manifest.",
  "    pub const fn tag(self) -> u8 \x7b",
  "        self as u8",
  "    \x7d",
  "",
  "    pub fn from_tag(tag: u8) -> Option<Self> \x7b",
  "        Self::ALL.into_iter().find(|flag| flag.tag() == tag)",
  "    \x7d",
  "\x7d",
  "",
  "/// Resolved access mode for the platform open call.",
  "#[derive(Debug, Clone, Copy, PartialEq, Eq, Default)]",
  "pub struct OpenMode \x7b",
  "    pub read: bool,",
  "    pub write: bool,",
  "    pub append: bool,",
  "    pub truncate: bool,",
  "    pub create: bool,",
  "    pub create_new: bool,",
  "\x7d",
  "",
  "impl OpenMode \x7b",
  "    /// Collapse an optional flag set into a mode. `None` means read-only.",
  "    pub fn from_flags(flags: Option<&[OpenFlag]>) -> Self \x7b",
  "        let Some(flags) = flags else \x7b",
  "            return Self \x7b",
  "                read: true,",
  "                ..Self::default()",
  "            \x7d;",
  "        \x7d;",
  "        let has = |flag: OpenFlag| flags.contains(&flag);",
  "        Self \x7b",
  "            read: has(OpenFlag::Read),",
  "            write: has(OpenFlag::Write),",
  "            append: has(OpenFlag::Append),",
  "            truncate: has(OpenFlag::Truncate),",
  "            create: has(OpenFlag::Create),",
  "            create_new: has(OpenFlag::CreateNew),",
  "        \x7d",
  "    \x7d",
  "\x7d",
  "",
  "#[cfg(test)]",
  "mod tests \x7b",
  "    use super::*;",
  "",
  "    #[test]",
  "    fn absent_flags_mean_read_only() \x7b",
  "        let mode = OpenMode::from_flags(None);",
  "        assert_eq!(",
  "            mode,",
  "            OpenMode \x7b",
  "                read: true,",
  "                ..OpenMode::default()",
  "            \x7d",
  "        );",
  "    \x7d",
  "",
  "    #[test]",
  "    fn explicit_flags_do_not_imply_read() \x7b",
  "        let mode = OpenMode::from_flags(Some(&[OpenFlag::Write, OpenFlag::Create]));",
  "        assert!(!mode.read);",
  "        assert!(mode.write);",
  "        assert!(mode.create);",
  "        assert!(!mode.truncate);",
  "    \x7d",
  "",
  "    #[test]",
  "    fn tags_match_declared_values() \x7b",
  "        let tags: Vec<u8> = OpenFlag::ALL.iter().map(|flag| flag.tag()).collect();",
  "        assert_eq!(tags, vec![0, 1, 2, 3, 4, 5]);",
  "        assert_eq!(OpenFlag::from_tag(5), Some(OpenFlag::CreateNew));",
  "        assert_eq!(OpenFlag::from_tag(6), None);",
  "    \x7d",
  "\x7d"]

/-- The text of the source; each line ends with a line feed. -/
def flagSource : String :=
  String.join (flagSourceLines.map (· ++ "\n"))

end ResourceHandles
