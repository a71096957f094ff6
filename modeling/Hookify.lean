import Hookify.Main
import Hookify.Proofs.Identifier.Form
import Hookify.Proofs.Text.Lines
import Hookify.Proofs.Text.Replacement
import Hookify.Proofs.Pass.Renaming
import Hookify.Proofs.Pass.Names
import Hookify.Proofs.Component.Dependencies
import Hookify.Proofs.Conversion.Component
import Hookify.Proofs.Conversion.Listeners
import Hookify.Proofs.Facts.Inside
import Hookify.Proofs.Pass.Origins
import Hookify.Proofs.Conversion.References
import Hookify.Proofs.Renderer.Setters
import Hookify.Proofs.Conversion.States
import Hookify.Proofs.Renderer.Locality
import Hookify.Proofs.Renderer.Splice
import Hookify.Proofs.Component.Names
import Hookify.Proofs.Conversion.Bindings
import Hookify.Proofs.Text.Breaks
import Hookify.Proofs.Renderer.Statements
import Hookify.Proofs.Script.Paths
import Hookify.Proofs.Facts.Scopes
import Hookify.Proofs.Conversion.Scopes
import Hookify.Proofs.Conversion.Functions
import Hookify.Proofs.Pass.Sources
import Hookify.Proofs.Conversion.Claims
import Hookify.Proofs.Pass.Reports
import Hookify.Proofs.Conversion.Events
import Hookify.Proofs.Request.Callbacks
import Hookify.Proofs.Script.Readers
import Hookify.Proofs.Script.Regular
import Hookify.Proofs.Script.Trees
import Hookify.Proofs.Request.Heads
import Hookify.Proofs.Renderer.Lexical
import Hookify.Proofs.Conversion.Handlers
import Hookify.Proofs.Script.Order
import Hookify.Proofs.Facts.Nest
import Hookify.Proofs.Pass.Plan
import Hookify.Proofs.Conversion.Effects
import Hookify.Proofs.Pass.Declared
import Hookify.Proofs.Conversion.Declarations
import Hookify.Proofs.Facts.Prefixes
import Hookify.Proofs.Renderer.Values
import Hookify.Proofs.Pass.ChainRecords
import Hookify.Proofs.Conversion.Animations
import Hookify.Proofs.Output.Comments
import Hookify.Proofs.Pass.Owners
import Hookify.Proofs.Conversion.Selectors
import Hookify.Proofs.Pass.Selectors
import Hookify.Proofs.Text.Alike
import Hookify.Proofs.Renderer.Alike
import Hookify.Proofs.Renderer.Noting
import Hookify.Proofs.Files.Entries
import Hookify.Proofs.Files.Places
import Hookify.Proofs.Files.Paths
import Hookify.Proofs.Files.Below
import Hookify.Proofs.Files.Writes
import Hookify.Proofs.Files.Ahead
import Hookify.Proofs.Conversion.Writes
import Hookify.Proofs.Batch.Walk
import Hookify.Proofs.Batch.Writes
import Hookify.Proofs.Batch.Outputs
import Hookify.Proofs.Batch.Sources
import Hookify.Proofs.Batch.Order
import Hookify.Proofs.Text.Solid
import Hookify.Proofs.Script.Declarations
import Hookify.Proofs.Facts.Declarations
import Hookify.Proofs.Renderer.Visits
import Hookify.Proofs.Conversion.Updates
import Hookify.Proofs.Conversion.Aliases
import Hookify.Proofs.Conversion.Code
import Hookify.Proofs.Text.Frames
import Hookify.Proofs.Conversion.Flavors
import Hookify.Proofs.Conversion.Leftovers
import Hookify.Proofs.Conversion.Assignments
import Hookify.Proofs.Conversion.Reads
import Hookify.Proofs.Conversion.Literals
import Hookify.Proofs.Identifier.Tokens
import Hookify.Proofs.Identifier.Templates
import Hookify.Proofs.Renderer.Arguments
import Hookify.Proofs.Request.Parameters
import Hookify.Proofs.Component.References
import Hookify.Proofs.Renderer.Inert
import Hookify.Proofs.Facts.ChainHeads
import Hookify.Proofs.Request.Addresses
import Hookify.Proofs.Conversion.Copies
import Hookify.Proofs.Identifier.Keys
import Hookify.Proofs.Page.Scripts
import Hookify.Proofs.Batch.Listing
import Hookify.Proofs.Text.Undecoded
import Hookify.Proofs.Conversion.Delegates
import Hookify.Proofs.Script.Starts
import Hookify.Proofs.Text.Relined
import Hookify.Proofs.Renderer.Fragments
import Hookify.Proofs.Pass.Fetches
import Hookify.Proofs.Conversion.Fetches
import Hookify.Proofs.Identifier.Search
import Hookify.Proofs.Identifier.Quoted
import Hookify.Proofs.Renderer.Helpers
