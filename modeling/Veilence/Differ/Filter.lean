import Veilence.Go.Text

/-!
# Tiers of the diff filter

The tables and the classification of {lit}`filter.go`: which files a diff shows
first, which only if the size limit leaves room, and which never.
-/

namespace Veilence
namespace Differ

open Go

/-- The priority of a file in a diff. -/
inductive Tier where
  | tier1
  | tier2
  | tier3
  | tier4
deriving DecidableEq, Repr

/-! ## Tables -/

/-- Binary and non-code extensions, always left out. -/
def tier4Extensions : List GoString :=
  [".png", ".jpg", ".jpeg", ".gif", ".ico", ".webp", ".bmp", ".tiff", ".woff", ".woff2",
   ".ttf", ".eot", ".otf", ".mp3", ".mp4", ".wav", ".avi", ".mov", ".pdf", ".doc",
   ".docx", ".xls", ".xlsx", ".ppt", ".pptx", ".map"].map String.toList

/-- File names in lower case that are always left out. -/
def tier4Basenames : List GoString :=
  ["license", "license.md", "license.txt", "license-mit", "license-apache", "licence",
   "licence.md", "notice", "notice.md", "authors", "authors.md", "contributors",
   "contributors.md", "changelog.md", "changelog.txt", "changes.md", "changes.txt",
   "history.md", "history.txt", "package-lock.json", "yarn.lock", "pnpm-lock.yaml",
   "pipfile.lock", "poetry.lock", "composer.lock", "cargo.lock", "gemfile.lock",
   ".gitignore", ".gitattributes", ".editorconfig", ".prettierrc", ".prettierignore",
   ".prettierrc.json", ".prettierrc.yml", ".prettierrc.yaml", ".eslintrc",
   ".eslintrc.json", ".eslintrc.yml", ".eslintrc.yaml", ".eslintignore", ".npmignore",
   ".npmrc", ".dockerignore", ".golangci.yml", ".golangci.yaml", ".gitpod.yml",
   ".codeclimate.yml", ".travis.yml", ".stylelintrc", ".stylelintrc.json", ".babelrc",
   ".babelrc.json", ".browserslistrc", ".nvmrc", ".node-version", ".python-version",
   ".ruby-version", ".flowconfig", ".watchmanconfig", ".yamllint.yml", ".yamllint.yaml",
   ".markdownlint.json", ".markdownlint.yml", ".markdownlintignore", ".commitlintrc.json",
   ".commitlintrc.yml", ".lintstagedrc", ".lintstagedrc.json", ".lintstagedrc.yml",
   ".releaserc", ".releaserc.json", ".releaserc.yml", ".coveragerc", ".nycrc",
   ".nycrc.json", ".dependabot.yml", "codecov.yml", ".codecov.yml", "renovate.json",
   ".renovaterc", ".renovaterc.json"].map String.toList

/-- Directory names that leave a file out. -/
def tier4Dirs : List GoString :=
  ["__pycache__", "node_modules", ".git"].map String.toList

/-- Directories of CI configuration. -/
def tier2Dirs : List GoString :=
  [".github", ".circleci", ".gitlab", ".travis", ".buildkite", ".jenkins", ".gitea",
   ".forgejo", ".woodpecker", ".drone"].map String.toList

/-- Extensions of documentation. -/
def tier3Extensions : List GoString :=
  [".md", ".txt", ".rst", ".adoc", ".log"].map String.toList

/-! ## Path functions -/

/-- The part of a path after its last separator. -/
def afterLastSlash (path : GoString) : GoString :=
  (path.reverse.takeWhile (· ≠ '/')).reverse

/-- {lit}`filepath.Base`: the last element of a path without trailing separators. -/
def base (path : GoString) : GoString :=
  if path = [] then ['.']
  else
    let trimmed := (path.reverse.dropWhile (· = '/')).reverse
    if trimmed = [] then ['/'] else afterLastSlash trimmed

/-- {lit}`filepath.Ext`: the suffix that begins at the last dot of the last element. -/
def ext (path : GoString) : GoString :=
  let last := (afterLastSlash path).reverse
  if '.' ∈ last then (last.takeWhile (· ≠ '.') ++ ['.']).reverse else []

/-! ## Classification -/

/-- The loop over the path segments: the first listed directory decides. -/
def classifySegments : List GoString → Option Tier
  | [] => none
  | seg :: segs =>
      if seg ∈ tier4Dirs then some .tier4
      else if seg ∈ tier2Dirs then some .tier2
      else classifySegments segs

/-- The tier of a file.  The ecosystem is passed in and not used, as in the source. -/
def classifyFile (path : GoString) (_ecosystem : GoString) : Tier :=
  match classifySegments (split '/' path) with
  | some tier => tier
  | none =>
      if toLower (base path) ∈ tier4Basenames then .tier4
      else if toLower (ext path) ∈ tier4Extensions then .tier4
      else if toLower (ext path) ∈ tier3Extensions then .tier3
      else .tier1

/-- {lit}`sort.Strings`, in byte order. -/
def sortStrings (paths : List GoString) : List GoString :=
  paths.insertionSort (· ≤ ·)

/-- The sorted paths of one tier, as {lit}`PartitionPaths` returns them. -/
def partitionPaths (paths : List GoString) (ecosystem : GoString) (tier : Tier) :
    List GoString :=
  sortStrings (paths.filter fun p => classifyFile p ecosystem = tier)

@[simp]
theorem mem_sortStrings {paths : List GoString} {p : GoString} :
    p ∈ sortStrings paths ↔ p ∈ paths :=
  List.mem_insertionSort _

/-- A path is in exactly the slice of its tier. -/
@[simp]
theorem mem_partitionPaths {paths : List GoString} {ecosystem : GoString} {tier : Tier}
    {p : GoString} :
    p ∈ partitionPaths paths ecosystem tier ↔
      p ∈ paths ∧ classifyFile p ecosystem = tier := by
  simp [partitionPaths]

example : classifyFile "src/__pycache__/foo.pyc".toList "npm".toList = .tier4 := by
  decide

end Differ
end Veilence
